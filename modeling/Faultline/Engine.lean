import Faultline.ByteOrder
import Faultline.Config

/-! The decision engine of one revision: which rule owns a call, which sequence
number the call gets and whether the rule's selector takes it. -/
namespace Faultline

/-- What an adapter knows of a request. Header values are kept apart per name. -/
structure Metadata where
  method : Bytes
  service : Bytes
  path : Bytes
  headers : List (Bytes × List Bytes)
  deriving DecidableEq

structure Decision where
  proxyID : String
  ruleID : String
  eligibleSequence : UInt64
  selected : Bool
  selector : Selector
  fault : Fault
  deriving DecidableEq

structure Counters where
  eligible : UInt64
  selected : UInt64
  deriving DecidableEq

/-- A rule with its counters, the seeds of its own generator and the number of
values already drawn from it. -/
structure RuleState where
  rule : Rule
  counters : Counters
  seeds : UInt64 × UInt64
  draws : ℕ
  deriving DecidableEq

structure Engine where
  proxies : OrdMap String (List RuleState)
  deriving DecidableEq

def ruleSeed (seed : UInt64) (proxyID ruleID : String) : Bytes :=
  putLE 8 seed.toNat ++ bytesOf proxyID ++ 0 :: bytesOf ruleID

def newRuleState (lib : Library) (seed : UInt64) (proxyID : String) (r : Rule) : RuleState :=
  let hash := (lib.sha256 (ruleSeed seed proxyID r.id)).toList
  ⟨r, ⟨0, 0⟩, (UInt64.ofNat (leNat (hash.take 8)), UInt64.ofNat (leNat ((hash.drop 8).take 8))), 0⟩

/-- The rule states of a configuration; a later proxy replaces one of the same ID. -/
def engineProxies (lib : Library) (c : Config) : OrdMap String (List RuleState) :=
  c.proxies.foldl (fun m p => m.insert p.id (p.ruleList.map (newRuleState lib c.seed p.id))) ∅

def Engine.new (lib : Library) (d : Option Document) : Option Engine :=
  match d with
  | some d => if d.valid then some ⟨engineProxies lib d.config⟩ else none
  | none => none

def foldByte (b : UInt8) : UInt8 := if 65 ≤ b ∧ b ≤ 90 then b + 32 else b

/-- `strings.EqualFold` against an ASCII name. Besides the other case of a letter, `k` folds
to the Kelvin sign and `s` to the long s, both of several bytes. -/
def equalFold : Bytes → Bytes → Bool
  | [], actual => actual = []
  | a :: name, actual =>
    match actual with
    | [] => false
    | b :: rest =>
      if b < 128 then foldByte a = foldByte b && equalFold name rest
      else if foldByte a = 107 && [0xE2, 0x84, 0xAA].isPrefixOf actual then
        equalFold name (actual.drop 3)
      else foldByte a = 115 && [0xC5, 0xBF].isPrefixOf actual && equalFold name (actual.drop 2)

/-- The loop of `matchesPathPattern` on the segments that `strings.Cut` takes off
the pattern and the path. -/
def segmentsMatch : List Bytes → List Bytes → Bool
  | [], [] => true
  | want :: restPattern, got :: restPath =>
    (if want.head? = some 58 then got ≠ [] else want = got) && segmentsMatch restPattern restPath
  | _, _ => false

def matchesPathPattern (pattern path : Bytes) : Bool :=
  segmentsMatch (pattern.splitOn 47) (path.splitOn 47)

def hasHeader (name value : String) (headers : List (Bytes × List Bytes)) : Bool :=
  headers.any (fun h => equalFold (bytesOf name) h.1 && h.2.contains (bytesOf value))

def matcherMatches (m : Matcher) (metadata : Metadata) : Bool :=
  let path := (cut 63 metadata.path).1
  if m.service ≠ "" ∧ bytesOf m.service ≠ metadata.service then false
  else if m.method ≠ "" ∧ bytesOf m.method ≠ metadata.method ∨ m.path ≠ "" ∧ bytesOf m.path ≠ path then
    false
  else if m.pathPattern ≠ "" ∧ ¬ matchesPathPattern (bytesOf m.pathPattern) path then false
  else (m.headers.getD ∅).entries.all (fun e => hasHeader e.1 e.2 metadata.headers)

/-- A selector of a validated rule that has neither `nth` nor `every` has a
probability; the default is never read. -/
def Selector.chance (s : Selector) : Float64 := s.probability.getD Float64.zero

/-- `selectAttempt`, with the number of draws it leaves behind. -/
def selectAttempt (lib : Library) (r : RuleState) (sequence : UInt64) : Bool × ℕ :=
  match r.rule.select.nth, r.rule.select.every with
  | some nth, _ => (sequence = nth, r.draws)
  | none, some every => (sequence % every = 0, r.draws)
  | none, none =>
    let p := r.rule.select.chance
    if p.eq Float64.zero then (false, r.draws)
    else if p.eq Float64.one then (true, r.draws)
    else ((lib.pcg r.seeds.1 r.seeds.2 r.draws).lt p, r.draws + 1)

/-- The critical section of `Decide`: one owned call of a rule. -/
def attempt (lib : Library) (r : RuleState) : Bool × RuleState :=
  let sequence := r.counters.eligible + 1
  let (selected, draws) := selectAttempt lib r sequence
  (selected, { r with
    counters := ⟨sequence, if selected then r.counters.selected + 1 else r.counters.selected⟩
    draws := draws })

def noDecision (proxyID : String) : Decision := ⟨proxyID, "", 0, false, Selector.zero, Fault.zero⟩

def ownedDecision (lib : Library) (proxyID : String) (r : RuleState) : Decision :=
  ⟨proxyID, r.rule.id, r.counters.eligible + 1, (attempt lib r).1, r.rule.select, r.rule.fault⟩

def applicable (metadata : Metadata) (r : Rule) : Bool := r.enabled && matcherMatches r.matcher metadata

/-- The loop of `Decide` over the rules of a proxy. -/
def decideRules (lib : Library) (proxyID : String) (metadata : Metadata) :
    List RuleState → Decision × List RuleState
  | [] => (noDecision proxyID, [])
  | r :: rest =>
    if applicable metadata r.rule then (ownedDecision lib proxyID r, (attempt lib r).2 :: rest)
    else ((decideRules lib proxyID metadata rest).1, r :: (decideRules lib proxyID metadata rest).2)

def unknownProxy : String := "engine: unknown proxy"

def Engine.decide (lib : Library) (e : Engine) (proxyID : String) (metadata : Metadata)
    (enabled : Bool) : Except String Decision × Engine :=
  match e.proxies.get? proxyID with
  | none => (.error unknownProxy, e)
  | some rules =>
    if !enabled then (.ok (noDecision proxyID), e)
    else
      let (d, rules) := decideRules lib proxyID metadata rules
      (.ok d, ⟨e.proxies.insert proxyID rules⟩)

def Engine.counters (e : Engine) (proxyID ruleID : String) : Option Counters :=
  (((e.proxies.get? proxyID).getD []).find? (fun r => r.rule.id = ruleID)).map (·.counters)

end Faultline
