import Faultline.ConfigSchema
import Faultline.StandardYaml

/-! The schema of a configuration, type by type, and that strict decoding accepts exactly its trees:
the fields of each type with their keys, the value that a tree describes, and the decoder of the type
as one that meets the schema. -/
namespace Faultline

def stringSchema (y : Yaml) : Schema String := scalarSchema ["!!str"] y.decodeString

def boolSchema (y : Yaml) : Schema Bool := scalarSchema ["!!bool"] y.decodeBool

def intSchema (y : Yaml) : Schema Int64 := scalarSchema ["!!int"] y.decodeInt

def uintSchema (y : Yaml) : Schema UInt64 := scalarSchema ["!!int"] y.decodeUint

def floatSchema (y : Yaml) : Schema Float64 := scalarSchema ["!!float", "!!int"] y.decodeFloat

def headersSchema (y : Yaml) : Schema (Option (OrdMap String String)) := mapSchema "" (stringSchema y)

theorem meets_headers (y : Yaml) : Meets (decodeHeaders y) (headersSchema y) := meets_map "" (meets_scalar _ _)

def runtimeSpecs (y : Yaml) : Fields Runtime where
  all :=
    [⟨"max_inflight_requests", _, Runtime.maxInflightRequests, fun r x => { r with maxInflightRequests := x },
        intSchema y, fun _ _ => rfl⟩,
      ⟨"request_timeout", _, Runtime.requestTimeout, fun r x => { r with requestTimeout := x },
        durationSchema y, fun _ _ => rfl⟩]
  distinct := by
    simp only [List.map_cons, List.map_nil]
    decide
  independent := by
    intro f hf g hg hne
    fin_cases hf <;> fin_cases hg <;> first | exact absurd rfl hne | exact fun _ _ => rfl
  determined := by
    intro v w h
    simp only [List.forall_mem_cons] at h
    cases v
    cases w
    simp_all

def Runtime.described (y : Yaml) (n : Node) (r : Runtime) : Runtime where
  maxInflightRequests := n.fieldValue "max_inflight_requests" (intSchema y) r.maxInflightRequests
  requestTimeout := n.fieldValue "request_timeout" (durationSchema y) r.requestTimeout

def runtimeSchema (y : Yaml) : Schema Runtime := structSchema (runtimeSpecs y) (Runtime.described y)

theorem meets_runtime (y : Yaml) (hy : y.parseDuration "" = none) : Meets (decodeRuntime y) (runtimeSchema y) := by
  refine meets_struct id (Runtime.described y) ?_ ?_
  · exact .cons ⟨rfl, _, rfl, meets_scalar _ _⟩ <|
      .cons ⟨rfl, _, rfl, meets_duration y hy⟩ <|
      .nil
  · intro n v f hf
    fin_cases hf <;> rfl

def listenerTLSSpecs (y : Yaml) : Fields ListenerTLS where
  all :=
    [⟨"cert_file", _, ListenerTLS.certFile, fun t x => { t with certFile := x },
        stringSchema y, fun _ _ => rfl⟩,
      ⟨"key_file", _, ListenerTLS.keyFile, fun t x => { t with keyFile := x }, stringSchema y, fun _ _ => rfl⟩,
      ⟨"client_ca_file", _, ListenerTLS.clientCAFile, fun t x => { t with clientCAFile := x },
        stringSchema y, fun _ _ => rfl⟩]
  distinct := by
    simp only [List.map_cons, List.map_nil]
    decide
  independent := by
    intro f hf g hg hne
    fin_cases hf <;> fin_cases hg <;> first | exact absurd rfl hne | exact fun _ _ => rfl
  determined := by
    intro v w h
    simp only [List.forall_mem_cons] at h
    cases v
    cases w
    simp_all

def ListenerTLS.described (y : Yaml) (n : Node) (t : ListenerTLS) : ListenerTLS where
  certFile := n.fieldValue "cert_file" (stringSchema y) t.certFile
  keyFile := n.fieldValue "key_file" (stringSchema y) t.keyFile
  clientCAFile := n.fieldValue "client_ca_file" (stringSchema y) t.clientCAFile

def listenerTLSSchema (y : Yaml) : Schema ListenerTLS := structSchema (listenerTLSSpecs y) (ListenerTLS.described y)

theorem meets_listenerTLS (y : Yaml) : Meets (decodeListenerTLS y) (listenerTLSSchema y) := by
  refine meets_struct id (ListenerTLS.described y) ?_ ?_
  · exact .cons ⟨rfl, _, rfl, meets_scalar _ _⟩ <|
      .cons ⟨rfl, _, rfl, meets_scalar _ _⟩ <|
      .cons ⟨rfl, _, rfl, meets_scalar _ _⟩ <|
      .nil
  · intro n v f hf
    fin_cases hf <;> rfl

def upstreamTLSSpecs (y : Yaml) : Fields UpstreamTLS where
  all :=
    [⟨"ca_file", _, UpstreamTLS.caFile, fun t x => { t with caFile := x }, stringSchema y, fun _ _ => rfl⟩,
      ⟨"cert_file", _, UpstreamTLS.certFile, fun t x => { t with certFile := x },
        stringSchema y, fun _ _ => rfl⟩,
      ⟨"key_file", _, UpstreamTLS.keyFile, fun t x => { t with keyFile := x }, stringSchema y, fun _ _ => rfl⟩]
  distinct := by
    simp only [List.map_cons, List.map_nil]
    decide
  independent := by
    intro f hf g hg hne
    fin_cases hf <;> fin_cases hg <;> first | exact absurd rfl hne | exact fun _ _ => rfl
  determined := by
    intro v w h
    simp only [List.forall_mem_cons] at h
    cases v
    cases w
    simp_all

def UpstreamTLS.described (y : Yaml) (n : Node) (t : UpstreamTLS) : UpstreamTLS where
  caFile := n.fieldValue "ca_file" (stringSchema y) t.caFile
  certFile := n.fieldValue "cert_file" (stringSchema y) t.certFile
  keyFile := n.fieldValue "key_file" (stringSchema y) t.keyFile

def upstreamTLSSchema (y : Yaml) : Schema UpstreamTLS := structSchema (upstreamTLSSpecs y) (UpstreamTLS.described y)

theorem meets_upstreamTLS (y : Yaml) : Meets (decodeUpstreamTLS y) (upstreamTLSSchema y) := by
  refine meets_struct id (UpstreamTLS.described y) ?_ ?_
  · exact .cons ⟨rfl, _, rfl, meets_scalar _ _⟩ <|
      .cons ⟨rfl, _, rfl, meets_scalar _ _⟩ <|
      .cons ⟨rfl, _, rfl, meets_scalar _ _⟩ <|
      .nil
  · intro n v f hf
    fin_cases hf <;> rfl

def matcherSpecs (y : Yaml) : Fields Matcher where
  all :=
    [⟨"path_pattern", _, Matcher.pathPattern, fun m x => { m with pathPattern := x },
        stringSchema y, fun _ _ => rfl⟩,
      ⟨"method", _, Matcher.method, fun m x => { m with method := x }, stringSchema y, fun _ _ => rfl⟩,
      ⟨"service", _, Matcher.service, fun m x => { m with service := x }, stringSchema y, fun _ _ => rfl⟩,
      ⟨"path", _, Matcher.path, fun m x => { m with path := x }, stringSchema y, fun _ _ => rfl⟩,
      ⟨"headers", _, Matcher.headers, fun m x => { m with headers := x }, headersSchema y, fun _ _ => rfl⟩]
  distinct := by
    simp only [List.map_cons, List.map_nil]
    decide
  independent := by
    intro f hf g hg hne
    fin_cases hf <;> fin_cases hg <;> first | exact absurd rfl hne | exact fun _ _ => rfl
  determined := by
    intro v w h
    simp only [List.forall_mem_cons] at h
    cases v
    cases w
    simp_all

def Matcher.described (y : Yaml) (n : Node) (m : Matcher) : Matcher where
  pathPattern := n.fieldValue "path_pattern" (stringSchema y) m.pathPattern
  method := n.fieldValue "method" (stringSchema y) m.method
  service := n.fieldValue "service" (stringSchema y) m.service
  path := n.fieldValue "path" (stringSchema y) m.path
  headers := n.fieldValue "headers" (headersSchema y) m.headers

def matcherSchema (y : Yaml) : Schema Matcher := structSchema (matcherSpecs y) (Matcher.described y)

theorem meets_matcher (y : Yaml) : Meets (decodeMatcher y) (matcherSchema y) := by
  refine meets_struct id (Matcher.described y) ?_ ?_
  · exact .cons ⟨rfl, _, rfl, meets_scalar _ _⟩ <|
      .cons ⟨rfl, _, rfl, meets_scalar _ _⟩ <|
      .cons ⟨rfl, _, rfl, meets_scalar _ _⟩ <|
      .cons ⟨rfl, _, rfl, meets_scalar _ _⟩ <|
      .cons ⟨rfl, _, rfl, meets_headers y⟩ <|
      .nil
  · intro n v f hf
    fin_cases hf <;> rfl

def selectorSpecs (y : Yaml) : Fields Selector where
  all :=
    [⟨"probability", _, Selector.probability, fun s x => { s with probability := x },
        pointerSchema Float64.zero (floatSchema y), fun _ _ => rfl⟩,
      ⟨"nth", _, Selector.nth, fun s x => { s with nth := x }, pointerSchema 0 (uintSchema y), fun _ _ => rfl⟩,
      ⟨"every", _, Selector.every, fun s x => { s with every := x },
        pointerSchema 0 (uintSchema y), fun _ _ => rfl⟩]
  distinct := by
    simp only [List.map_cons, List.map_nil]
    decide
  independent := by
    intro f hf g hg hne
    fin_cases hf <;> fin_cases hg <;> first | exact absurd rfl hne | exact fun _ _ => rfl
  determined := by
    intro v w h
    simp only [List.forall_mem_cons] at h
    cases v
    cases w
    simp_all

def Selector.described (y : Yaml) (n : Node) (s : Selector) : Selector where
  probability := n.fieldValue "probability" (pointerSchema Float64.zero (floatSchema y)) s.probability
  nth := n.fieldValue "nth" (pointerSchema 0 (uintSchema y)) s.nth
  every := n.fieldValue "every" (pointerSchema 0 (uintSchema y)) s.every

def selectorSchema (y : Yaml) : Schema Selector := structSchema (selectorSpecs y) (Selector.described y)

theorem meets_selector (y : Yaml) : Meets (decodeSelector y) (selectorSchema y) := by
  refine meets_struct id (Selector.described y) ?_ ?_
  · exact .cons ⟨rfl, _, rfl, meets_pointer _ (meets_scalar _ _)⟩ <|
      .cons ⟨rfl, _, rfl, meets_pointer _ (meets_scalar _ _)⟩ <|
      .cons ⟨rfl, _, rfl, meets_pointer _ (meets_scalar _ _)⟩ <|
      .nil
  · intro n v f hf
    fin_cases hf <;> rfl

def faultSpecs (y : Yaml) : Fields Fault where
  all :=
    [⟨"phase", _, Fault.phase, fun f x => { f with phase := x }, stringSchema y, fun _ _ => rfl⟩,
      ⟨"action", _, Fault.action, fun f x => { f with action := x }, stringSchema y, fun _ _ => rfl⟩,
      ⟨"duration", _, Fault.duration, fun f x => { f with duration := x },
        pointerSchema 0 (durationSchema y), fun _ _ => rfl⟩,
      ⟨"max_duration", _, Fault.maxDuration, fun f x => { f with maxDuration := x },
        pointerSchema 0 (durationSchema y), fun _ _ => rfl⟩,
      ⟨"status", _, Fault.status, fun f x => { f with status := x },
        pointerSchema 0 (intSchema y), fun _ _ => rfl⟩,
      ⟨"body", _, Fault.body, fun f x => { f with body := x },
        pointerSchema "" (stringSchema y), fun _ _ => rfl⟩,
      ⟨"direction", _, Fault.direction, fun f x => { f with direction := x }, stringSchema y, fun _ _ => rfl⟩,
      ⟨"bytes", _, Fault.bytes, fun f x => { f with bytes := x },
        pointerSchema 0 (intSchema y), fun _ _ => rfl⟩,
      ⟨"bytes_per_second", _, Fault.bytesPerSecond, fun f x => { f with bytesPerSecond := x },
        pointerSchema 0 (intSchema y), fun _ _ => rfl⟩,
      ⟨"after_bytes", _, Fault.afterBytes, fun f x => { f with afterBytes := x },
        pointerSchema 0 (intSchema y), fun _ _ => rfl⟩,
      ⟨"after_duration", _, Fault.afterDuration, fun f x => { f with afterDuration := x },
        pointerSchema 0 (durationSchema y), fun _ _ => rfl⟩,
      ⟨"trigger_direction", _, Fault.triggerDirection, fun f x => { f with triggerDirection := x },
        stringSchema y, fun _ _ => rfl⟩]
  distinct := by
    simp only [List.map_cons, List.map_nil]
    decide
  independent := by
    intro f hf g hg hne
    fin_cases hf <;> fin_cases hg <;> first | exact absurd rfl hne | exact fun _ _ => rfl
  determined := by
    intro v w h
    simp only [List.forall_mem_cons] at h
    cases v
    cases w
    simp_all

def Fault.described (y : Yaml) (n : Node) (f : Fault) : Fault where
  phase := n.fieldValue "phase" (stringSchema y) f.phase
  action := n.fieldValue "action" (stringSchema y) f.action
  duration := n.fieldValue "duration" (pointerSchema 0 (durationSchema y)) f.duration
  maxDuration := n.fieldValue "max_duration" (pointerSchema 0 (durationSchema y)) f.maxDuration
  status := n.fieldValue "status" (pointerSchema 0 (intSchema y)) f.status
  body := n.fieldValue "body" (pointerSchema "" (stringSchema y)) f.body
  direction := n.fieldValue "direction" (stringSchema y) f.direction
  bytes := n.fieldValue "bytes" (pointerSchema 0 (intSchema y)) f.bytes
  bytesPerSecond := n.fieldValue "bytes_per_second" (pointerSchema 0 (intSchema y)) f.bytesPerSecond
  afterBytes := n.fieldValue "after_bytes" (pointerSchema 0 (intSchema y)) f.afterBytes
  afterDuration := n.fieldValue "after_duration" (pointerSchema 0 (durationSchema y)) f.afterDuration
  triggerDirection := n.fieldValue "trigger_direction" (stringSchema y) f.triggerDirection

def faultSchema (y : Yaml) : Schema Fault := structSchema (faultSpecs y) (Fault.described y)

theorem meets_fault (y : Yaml) (hy : y.parseDuration "" = none) : Meets (decodeFault y) (faultSchema y) := by
  refine meets_struct id (Fault.described y) ?_ ?_
  · exact .cons ⟨rfl, _, rfl, meets_scalar _ _⟩ <|
      .cons ⟨rfl, _, rfl, meets_scalar _ _⟩ <|
      .cons ⟨rfl, _, rfl, meets_pointer _ (meets_duration y hy)⟩ <|
      .cons ⟨rfl, _, rfl, meets_pointer _ (meets_duration y hy)⟩ <|
      .cons ⟨rfl, _, rfl, meets_pointer _ (meets_scalar _ _)⟩ <|
      .cons ⟨rfl, _, rfl, meets_pointer _ (meets_scalar _ _)⟩ <|
      .cons ⟨rfl, _, rfl, meets_scalar _ _⟩ <|
      .cons ⟨rfl, _, rfl, meets_pointer _ (meets_scalar _ _)⟩ <|
      .cons ⟨rfl, _, rfl, meets_pointer _ (meets_scalar _ _)⟩ <|
      .cons ⟨rfl, _, rfl, meets_pointer _ (meets_scalar _ _)⟩ <|
      .cons ⟨rfl, _, rfl, meets_pointer _ (meets_duration y hy)⟩ <|
      .cons ⟨rfl, _, rfl, meets_scalar _ _⟩ <|
      .nil
  · intro n v f hf
    fin_cases hf <;> rfl

def ruleSpecs (y : Yaml) : Fields Rule where
  all :=
    [⟨"id", _, Rule.id, fun r x => { r with id := x }, stringSchema y, fun _ _ => rfl⟩,
      ⟨"enabled", _, Rule.enabled, fun r x => { r with enabled := x }, boolSchema y, fun _ _ => rfl⟩,
      ⟨"match", _, Rule.matcher, fun r x => { r with matcher := x }, matcherSchema y, fun _ _ => rfl⟩,
      ⟨"select", _, Rule.select, fun r x => { r with select := x }, selectorSchema y, fun _ _ => rfl⟩,
      ⟨"fault", _, Rule.fault, fun r x => { r with fault := x }, faultSchema y, fun _ _ => rfl⟩]
  distinct := by
    simp only [List.map_cons, List.map_nil]
    decide
  independent := by
    intro f hf g hg hne
    fin_cases hf <;> fin_cases hg <;> first | exact absurd rfl hne | exact fun _ _ => rfl
  determined := by
    intro v w h
    simp only [List.forall_mem_cons] at h
    cases v
    cases w
    simp_all

def Rule.described (y : Yaml) (n : Node) (r : Rule) : Rule where
  id := n.fieldValue "id" (stringSchema y) r.id
  enabled := n.fieldValue "enabled" (boolSchema y) true
  matcher := n.fieldValue "match" (matcherSchema y) r.matcher
  select := n.fieldValue "select" (selectorSchema y) r.select
  fault := n.fieldValue "fault" (faultSchema y) r.fault

def ruleSchema (y : Yaml) : Schema Rule := structSchema (ruleSpecs y) (Rule.described y)

theorem meets_rule (y : Yaml) (hy : y.parseDuration "" = none) : Meets (decodeRule y) (ruleSchema y) := by
  refine meets_struct (fun r => { r with enabled := true }) (Rule.described y) ?_ ?_
  · exact .cons ⟨rfl, _, rfl, meets_scalar _ _⟩ <|
      .cons ⟨rfl, _, rfl, meets_scalar _ _⟩ <|
      .cons ⟨rfl, _, rfl, meets_matcher y⟩ <|
      .cons ⟨rfl, _, rfl, meets_selector y⟩ <|
      .cons ⟨rfl, _, rfl, meets_fault y hy⟩ <|
      .nil
  · intro n v f hf
    fin_cases hf <;> rfl

theorem decodesField_rules (y : Yaml) (hy : y.parseDuration "" = none) : DecodesField
    ("rules", structField Proxy.ruleList (fun p x => { p with rules := some x })
      (decodeSlice Rule.zero (decodeRule y)))
    ⟨"rules", _, Proxy.rules, fun p x => { p with rules := x },
      pointerSchema [] (sliceSchema Rule.zero (ruleSchema y)), fun _ _ => rfl⟩ := by
  have hslice := meets_slice Rule.zero (meets_rule y hy)
  refine ⟨rfl, fun n path v => (decodeSlice Rule.zero (decodeRule y) n path (v.getD [])).map some, ?_, ?_, hslice.keys, ?_⟩
  · funext n path v
    simp only [structField, Proxy.ruleList]
    cases decodeSlice Rule.zero (decodeRule y) n path (v.rules.getD []) with
    | error e => rfl
    | ok x => rfl
  · intro n path v w
    rw [map_eq_ok]
    simp only [hslice.decodes, pointerSchema]
    constructor
    · rintro ⟨x, ⟨hplain, hshape, rfl⟩, rfl⟩
      exact ⟨hplain, hshape, rfl⟩
    · rintro ⟨hplain, hshape, rfl⟩
      exact ⟨_, ⟨hplain, hshape, rfl⟩, rfl⟩
  · intro n n' v hn hshape
    obtain ⟨hshape', hvalue⟩ := hslice.unordered n n' [] hn hshape
    exact ⟨hshape', congrArg some hvalue⟩

def proxySpecs (y : Yaml) : Fields Proxy where
  all :=
    [⟨"id", _, Proxy.id, fun p x => { p with id := x }, stringSchema y, fun _ _ => rfl⟩,
      ⟨"protocol", _, Proxy.protocol, fun p x => { p with protocol := x }, stringSchema y, fun _ _ => rfl⟩,
      ⟨"upstream_protocol", _, Proxy.upstreamProtocol, fun p x => { p with upstreamProtocol := x },
        stringSchema y, fun _ _ => rfl⟩,
      ⟨"listen", _, Proxy.listen, fun p x => { p with listen := x }, stringSchema y, fun _ _ => rfl⟩,
      ⟨"upstream", _, Proxy.upstream, fun p x => { p with upstream := x }, stringSchema y, fun _ _ => rfl⟩,
      ⟨"tls", _, Proxy.tls, fun p x => { p with tls := x },
        pointerSchema ⟨"", "", ""⟩ (listenerTLSSchema y), fun _ _ => rfl⟩,
      ⟨"upstream_tls", _, Proxy.upstreamTLS, fun p x => { p with upstreamTLS := x },
        pointerSchema ⟨"", "", ""⟩ (upstreamTLSSchema y), fun _ _ => rfl⟩,
      ⟨"rules", _, Proxy.rules, fun p x => { p with rules := x },
        pointerSchema [] (sliceSchema Rule.zero (ruleSchema y)), fun _ _ => rfl⟩]
  distinct := by
    simp only [List.map_cons, List.map_nil]
    decide
  independent := by
    intro f hf g hg hne
    fin_cases hf <;> fin_cases hg <;> first | exact absurd rfl hne | exact fun _ _ => rfl
  determined := by
    intro v w h
    simp only [List.forall_mem_cons] at h
    cases v
    cases w
    simp_all

def Proxy.described (y : Yaml) (n : Node) (p : Proxy) : Proxy where
  id := n.fieldValue "id" (stringSchema y) p.id
  protocol := n.fieldValue "protocol" (stringSchema y) p.protocol
  upstreamProtocol := n.fieldValue "upstream_protocol" (stringSchema y) p.upstreamProtocol
  listen := n.fieldValue "listen" (stringSchema y) p.listen
  upstream := n.fieldValue "upstream" (stringSchema y) p.upstream
  tls := n.fieldValue "tls" (pointerSchema ⟨"", "", ""⟩ (listenerTLSSchema y)) p.tls
  upstreamTLS := n.fieldValue "upstream_tls" (pointerSchema ⟨"", "", ""⟩ (upstreamTLSSchema y)) p.upstreamTLS
  rules := n.fieldValue "rules" (pointerSchema [] (sliceSchema Rule.zero (ruleSchema y))) p.rules

def proxySchema (y : Yaml) : Schema Proxy := structSchema (proxySpecs y) (Proxy.described y)

theorem meets_proxy (y : Yaml) (hy : y.parseDuration "" = none) : Meets (decodeProxy y) (proxySchema y) := by
  refine meets_struct id (Proxy.described y) ?_ ?_
  · exact .cons ⟨rfl, _, rfl, meets_scalar _ _⟩ <|
      .cons ⟨rfl, _, rfl, meets_scalar _ _⟩ <|
      .cons ⟨rfl, _, rfl, meets_scalar _ _⟩ <|
      .cons ⟨rfl, _, rfl, meets_scalar _ _⟩ <|
      .cons ⟨rfl, _, rfl, meets_scalar _ _⟩ <|
      .cons ⟨rfl, _, rfl, meets_pointer _ (meets_listenerTLS y)⟩ <|
      .cons ⟨rfl, _, rfl, meets_pointer _ (meets_upstreamTLS y)⟩ <|
      .cons (decodesField_rules y hy) <|
      .nil
  · intro n v f hf
    fin_cases hf <;> rfl

def configSpecs (y : Yaml) : Fields Config where
  all :=
    [⟨"api_version", _, Config.apiVersion, fun c x => { c with apiVersion := x },
        stringSchema y, fun _ _ => rfl⟩,
      ⟨"seed", _, Config.seed, fun c x => { c with seed := x }, uintSchema y, fun _ _ => rfl⟩,
      ⟨"runtime", _, Config.runtime, fun c x => { c with runtime := x }, runtimeSchema y, fun _ _ => rfl⟩,
      ⟨"proxies", _, Config.proxies, fun c x => { c with proxies := x },
        sliceSchema Proxy.zero (proxySchema y), fun _ _ => rfl⟩]
  distinct := by
    simp only [List.map_cons, List.map_nil]
    decide
  independent := by
    intro f hf g hg hne
    fin_cases hf <;> fin_cases hg <;> first | exact absurd rfl hne | exact fun _ _ => rfl
  determined := by
    intro v w h
    simp only [List.forall_mem_cons] at h
    cases v
    cases w
    simp_all

def Config.described (y : Yaml) (n : Node) (c : Config) : Config where
  apiVersion := n.fieldValue "api_version" (stringSchema y) c.apiVersion
  seed := n.fieldValue "seed" (uintSchema y) c.seed
  runtime := n.fieldValue "runtime" (runtimeSchema y) c.runtime
  proxies := n.fieldValue "proxies" (sliceSchema Proxy.zero (proxySchema y)) c.proxies

def configSchema (y : Yaml) : Schema Config := structSchema (configSpecs y) (Config.described y)

theorem decodes_config (y : Yaml) (hy : y.parseDuration "" = none) :
    List.Forall₂ DecodesField (configFields y) (configSpecs y).all :=
  .cons ⟨rfl, _, rfl, meets_scalar _ _⟩ <|
    .cons ⟨rfl, _, rfl, meets_scalar _ _⟩ <|
    .cons ⟨rfl, _, rfl, meets_runtime y hy⟩ <|
    .cons ⟨rfl, _, rfl, meets_slice _ (meets_proxy y hy)⟩ <|
    .nil

theorem meets_config (y : Yaml) (hy : y.parseDuration "" = none) : Meets (decodeConfig y) (configSchema y) := by
  refine meets_struct id (Config.described y) (decodes_config y hy) ?_
  intro n v f hf
  fin_cases hf <;> rfl

def FieldSpec.root (f : FieldSpec Config) : FieldSpec RootConfig :=
  ⟨f.key, f.β, fun r => f.get r.config, fun r x => { r with config := f.set r.config x }, f.schema,
    fun _ _ => f.get_set _ _⟩

theorem decodesField_root {d : String × Decoder Config} {f : FieldSpec Config} (h : DecodesField d f) :
    DecodesField (d.1, structField RootConfig.config (fun r x => { r with config := x }) d.2) f.root := by
  obtain ⟨hkey, decode, hdecode, hmeets⟩ := h
  refine ⟨hkey, decode, ?_, hmeets⟩
  funext n path r
  simp only [hdecode, structField, FieldSpec.root]
  cases decode n path (f.get r.config) with
  | error e => rfl
  | ok x => rfl

def includeSpec (y : Yaml) : FieldSpec RootConfig :=
  ⟨"include", _, RootConfig.includes, fun r x => { r with includes := x }, sliceSchema "" (stringSchema y),
    fun _ _ => rfl⟩

def rootSpecs (y : Yaml) : Fields RootConfig where
  all := (configSpecs y).all.map FieldSpec.root ++ [includeSpec y]
  distinct := by
    change ["api_version", "seed", "runtime", "proxies", "include"].Nodup
    decide
  independent := by
    intro f hf g hg hne v x
    rw [List.mem_append, List.mem_map, List.mem_singleton] at hf hg
    rcases hf with ⟨f, hf, rfl⟩ | rfl
    · rcases hg with ⟨g, hg, rfl⟩ | rfl
      · exact (configSpecs y).independent f hf g hg hne v.config x
      · rfl
    · rcases hg with ⟨g, hg, rfl⟩ | rfl
      · rfl
      · exact absurd rfl hne
  determined := by
    intro v w h
    have hconfig : v.config = w.config := by
      apply (configSpecs y).determined
      intro f hf
      exact h f.root (List.mem_append_left _ (List.mem_map_of_mem hf))
    have hincludes : v.includes = w.includes := h (includeSpec y) (List.mem_append_right _ List.mem_cons_self)
    cases v
    cases w
    simp_all

def RootConfig.described (y : Yaml) (n : Node) (r : RootConfig) : RootConfig where
  config := Config.described y n r.config
  includes := n.fieldValue "include" (sliceSchema "" (stringSchema y)) r.includes

def rootSchema (y : Yaml) : Schema RootConfig := structSchema (rootSpecs y) (RootConfig.described y)

theorem meets_root (y : Yaml) (hy : y.parseDuration "" = none) : Meets (decodeRoot y) (rootSchema y) := by
  refine meets_struct id (RootConfig.described y) ?_ ?_
  · apply List.rel_append
    · rw [List.forall₂_map_left_iff, List.forall₂_map_right_iff]
      exact (decodes_config y hy).imp (fun _ _ h => decodesField_root h)
    · exact .cons ⟨rfl, _, rfl, meets_slice _ (meets_scalar _ _)⟩ .nil
  · intro n v f hf
    rcases List.mem_append.mp hf with hconfig | hinclude
    · obtain ⟨g, hg, rfl⟩ := List.mem_map.mp hconfig
      fin_cases hg <;> rfl
    · rw [List.mem_singleton.mp hinclude]
      rfl

def fragmentSpecs (y : Yaml) : Fields (List Proxy) where
  all := [⟨"proxies", _, id, fun _ x => x, sliceSchema Proxy.zero (proxySchema y), fun _ _ => rfl⟩]
  distinct := List.nodup_singleton _
  independent := by
    intro f hf g hg hne
    fin_cases hf
    fin_cases hg
    exact absurd rfl hne
  determined := by
    intro v w h
    exact h _ List.mem_cons_self

def fragmentDescribed (y : Yaml) (n : Node) (proxies : List Proxy) : List Proxy :=
  n.fieldValue "proxies" (sliceSchema Proxy.zero (proxySchema y)) proxies

def fragmentSchema (y : Yaml) : Schema (List Proxy) := structSchema (fragmentSpecs y) (fragmentDescribed y)

theorem meets_fragment (y : Yaml) (hy : y.parseDuration "" = none) :
    Meets (decodeFragment y) (fragmentSchema y) := by
  refine meets_struct id (fragmentDescribed y) ?_ ?_
  · exact .cons ⟨rfl, _, rfl, meets_slice _ (meets_proxy y hy)⟩ .nil
  · intro n v f hf
    fin_cases hf
    rfl

/-- Strict decoding of a tree over a default value: it succeeds exactly for a tree without aliases and
nulls, with scalars for keys and with the shape of the schema; the result is the value that the tree
describes, in whatever order the pairs of its mappings are. -/
structure Strict {α : Type} (decode : Decoder α) (s : Schema α) (default : α) (n : Node) : Prop where
  accepts : (∃ w, decode n "" default = .ok w) ↔ n.NoNulls ∧ n.ScalarKeys ∧ s.Shape n
  result : ∀ w, decode n "" default = .ok w → w = s.value n default
  unordered : ∀ n' w, Reordered n n' → decode n "" default = .ok w → decode n' "" default = .ok w

/-- A decoder of a schema is strict, except for the kind of the keys that it takes. -/
theorem Meets.strict_iff {α : Type} {decode : Decoder α} {s : Schema α} (h : Meets decode s) (default : α) (n : Node) :
    Strict decode s default n ↔ (n.Plain → s.Shape n → n.ScalarKeys) := by
  have haccepts : (∃ w, decode n "" default = .ok w) ↔ n.Plain ∧ s.Shape n := by
    simp only [h.decodes]
    constructor
    · rintro ⟨w, hplain, hshape, -⟩
      exact ⟨hplain, hshape⟩
    · rintro ⟨hplain, hshape⟩
      exact ⟨_, hplain, hshape, rfl⟩
  constructor
  · rintro ⟨hstrict, -, -⟩ hplain hshape
    exact (hstrict.mp (haccepts.mpr ⟨hplain, hshape⟩)).2.1
  · intro hkeys
    refine ⟨?_, ?_, ?_⟩
    · rw [haccepts]
      constructor
      · rintro ⟨hplain, hshape⟩
        have hscalar := hkeys hplain hshape
        exact ⟨noNulls_of_keys hplain (h.keys n hshape) hscalar, hscalar, hshape⟩
      · rintro ⟨hnulls, -, hshape⟩
        exact ⟨hnulls.plain, hshape⟩
    · intro w hw
      exact ((h.decodes _ _ _ _).mp hw).2.2
    · intro n' w hn hw
      obtain ⟨hplain, hshape, rfl⟩ := (h.decodes _ _ _ _).mp hw
      obtain ⟨hshape', hvalue⟩ := h.unordered n n' default hn hshape
      exact (h.decodes _ _ _ _).mpr ⟨hn.plain hplain, hshape', hvalue.symm⟩

def oneField (key : String) (value : Node) : Node := .mapping "!!map" [.str key, value]

/-- Matches on headers with a key that is a sequence of a string and an alias, but has the tag of
strings. -/
def taggedKey : Node :=
  oneField "proxies" (.sequence "!!seq" [oneField "rules" (.sequence "!!seq" [oneField "match"
    (oneField "headers" (.mapping "!!map" [.sequence "!!str" [.str "X-Test", .alias], .str "exact"]))])])

theorem scalarKeys_oneField (key : String) {value : Node} (h : value.ScalarKeys) :
    (oneField key value).ScalarKeys := by
  refine (Node.everywhere_iff _ _).mpr ⟨?_, ?_, fun i hi => absurd hi List.not_mem_nil⟩
  · intro p hp
    rw [List.mem_singleton.mp hp]
    rfl
  · intro p hp
    rw [List.mem_singleton.mp hp]
    exact h

end Faultline
