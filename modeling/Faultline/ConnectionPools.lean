import Faultline.Config
import Faultline.Machine

/-! The accept loops of the TCP, MySQL and PostgreSQL servers, the connections they serve, and
`Close`. Nothing tells two goroutines at the same point of the program apart, so they are counted. -/
namespace Faultline
namespace Pools

/-- The TCP server takes a slot for every connection it accepts. The database servers let more
connections in, and these take their slots themselves: MySQL's at once, PostgreSQL's when they have
been heard. -/
inductive Kind where
  | tcp
  | mysql
  | postgresql
  deriving DecidableEq

def Kind.protocol : Kind → String
  | .tcp => "tcp"
  | .mysql => "mysql"
  | .postgresql => "postgresql"

def slotLimit (c : Config) : ℕ := c.runtime.maxInflightRequests.toInt.toNat

def handshakeLimit (c : Config) : ℕ := slotLimit c + 16

def Kind.endpoints (k : Kind) (c : Config) : ℕ := (c.proxies.filter (fun p => p.protocol = k.protocol)).length

inductive CloseAt where
  | notCalled
  | marked
  | cancelled
  | returned
  deriving DecidableEq

/-- How many goroutines are where, and how much is in each channel. An accept loop waits in `Accept`
or has a connection, with its listener open or closed, or reports an error, or has returned. A
connection is served, before or after it has a slot, or has given its slot back. -/
structure Pool where
  openWaiting : ℕ
  openHolding : ℕ
  closedWaiting : ℕ
  closedHolding : ℕ
  reporting : ℕ
  ended : ℕ
  entered : ℕ
  serving : ℕ
  leaving : ℕ
  slots : ℕ
  handshakes : ℕ
  errors : ℕ
  close : CloseAt
  deriving DecidableEq

/-- `Start`, once every listener is bound. -/
def Pool.start (k : Kind) (c : Config) : Pool := ⟨k.endpoints c, 0, 0, 0, 0, 0, 0, 0, 0, 0, 0, 0, .notCalled⟩

inductive Input where
  | accept
  | choose (listening : Bool)
  | fail (listening : Bool)
  | report
  | receive
  | enter
  | abandon
  | finish
  | leave
  | close
  | cancel
  | closeListener (holding : Bool)
  | wait
  deriving DecidableEq

/-- The `select` of an accept loop with a new connection. -/
def Pool.choose (k : Kind) (c : Config) (s : Pool) : Pool :=
  if k = .tcp then
    if s.slots < slotLimit c then { s with slots := s.slots + 1, serving := s.serving + 1 } else s
  else if s.handshakes < handshakeLimit c then
    { s with handshakes := s.handshakes + 1, entered := s.entered + 1 }
  else s

/-- An accept loop after `Accept` has failed. -/
def Pool.failed (s : Pool) : Pool :=
  if s.close = .cancelled ∨ s.close = .returned then { s with ended := s.ended + 1 }
  else { s with reporting := s.reporting + 1 }

/-- The goroutines of the server, as `wg` counts them. -/
def Pool.goroutines (s : Pool) : ℕ :=
  s.openWaiting + s.openHolding + s.closedWaiting + s.closedHolding + s.reporting + s.entered + s.serving +
    s.leaving

/-- One step of one goroutine. A step that its goroutine cannot take, because none is there or
because it blocks, changes nothing. -/
def Pool.step (k : Kind) (c : Config) (s : Pool) : Input → Unit × Pool
  | .accept =>
    ((), if 0 < s.openWaiting then
        { s with openWaiting := s.openWaiting - 1, openHolding := s.openHolding + 1 } else s)
  | .choose true =>
    ((), if 0 < s.openHolding then
        { s with openHolding := s.openHolding - 1, openWaiting := s.openWaiting + 1 }.choose k c else s)
  | .choose false =>
    ((), if 0 < s.closedHolding then
        { s with closedHolding := s.closedHolding - 1, closedWaiting := s.closedWaiting + 1 }.choose k c else s)
  | .fail true => ((), if 0 < s.openWaiting then { s with openWaiting := s.openWaiting - 1 }.failed else s)
  | .fail false => ((), if 0 < s.closedWaiting then { s with closedWaiting := s.closedWaiting - 1 }.failed else s)
  -- the channel of the errors has room for one error of each proxy
  | .report =>
    ((), if 0 < s.reporting ∧ s.errors < c.proxies.length then
        { s with reporting := s.reporting - 1, errors := s.errors + 1, ended := s.ended + 1 } else s)
  | .receive => ((), { s with errors := s.errors - 1 })
  | .enter =>
    ((), if 0 < s.entered then
        if s.slots < slotLimit c then
          { s with entered := s.entered - 1, slots := s.slots + 1, serving := s.serving + 1 }
        else { s with entered := s.entered - 1, leaving := s.leaving + 1 }
      else s)
  -- before it asks for a slot, a PostgreSQL connection may fail, cancel a session or be refused
  | .abandon =>
    ((), if k = .postgresql ∧ 0 < s.entered then { s with entered := s.entered - 1, leaving := s.leaving + 1 } else s)
  | .finish =>
    ((), if 0 < s.serving ∧ 0 < s.slots then
        { s with
          serving := s.serving - 1
          slots := s.slots - 1
          leaving := if k = .tcp then s.leaving else s.leaving + 1 }
      else s)
  | .leave =>
    ((), if 0 < s.leaving ∧ 0 < s.handshakes then
        { s with leaving := s.leaving - 1, handshakes := s.handshakes - 1 } else s)
  | .close => ((), if s.close = .notCalled then { s with close := .marked } else s)
  | .cancel => ((), if s.close = .marked then { s with close := .cancelled } else s)
  | .closeListener true =>
    ((), if s.close = .cancelled ∧ 0 < s.openHolding then
        { s with openHolding := s.openHolding - 1, closedHolding := s.closedHolding + 1 } else s)
  | .closeListener false =>
    ((), if s.close = .cancelled ∧ 0 < s.openWaiting then
        { s with openWaiting := s.openWaiting - 1, closedWaiting := s.closedWaiting + 1 } else s)
  | .wait => ((), if s.close = .cancelled ∧ s.goroutines = 0 then { s with close := .returned } else s)

def Pool.after (k : Kind) (c : Config) (inputs : List Input) : Pool :=
  (run (Pool.step k c) (Pool.start k c) inputs).2

structure Pool.Sound (k : Kind) (c : Config) (s : Pool) : Prop where
  slots : s.slots = s.serving
  handshakes : s.handshakes = (if k = .tcp then 0 else s.serving) + s.entered + s.leaving
  tcp : k = .tcp → s.entered = 0 ∧ s.leaving = 0
  maxSlots : s.slots ≤ slotLimit c
  maxHandshakes : s.handshakes ≤ handshakeLimit c
  loops : s.openWaiting + s.openHolding + s.closedWaiting + s.closedHolding + s.reporting + s.ended = k.endpoints c
  errors : s.errors ≤ s.ended
  -- a listener is only closed once the context is cancelled
  closed : s.close = .notCalled ∨ s.close = .marked → s.closedWaiting = 0 ∧ s.closedHolding = 0
  returned : s.close = .returned → s.goroutines = 0

variable {k : Kind} {c : Config} {s : Pool}

theorem Pool.Sound.choose (h : s.Sound k c) (hclose : s.close ≠ .returned) : (s.choose k c).Sound k c := by
  obtain ⟨hslots, hhandshakes, htcp, hmax, hmore, hloops, herrors, hclosed, -⟩ := h
  unfold Pool.choose
  split_ifs <;> constructor <;> grind

theorem sound_step (k : Kind) (c : Config) (s : Pool) (i : Input) (h : s.Sound k c) :
    (s.step k c i).2.Sound k c := by
  have hkept := h
  obtain ⟨hslots, hhandshakes, htcp, hmax, hmore, hloops, herrors, hclosed, hreturned⟩ := h
  unfold Pool.goroutines at hreturned
  cases i with
  | choose listening =>
    -- the loop goes back to its listener, with or without a new connection
    cases listening
    all_goals
      simp only [Pool.step]
      split_ifs
      · apply Pool.Sound.choose
        · constructor <;> grind [Pool.goroutines]
        · grind
      · exact hkept
  | fail listening =>
    cases listening
    all_goals
      simp only [Pool.step, Pool.failed]
      split_ifs
      all_goals first | exact hkept | constructor <;> grind [Pool.goroutines]
  | closeListener holding =>
    cases holding
    all_goals
      simp only [Pool.step]
      split_ifs
      · constructor <;> grind [Pool.goroutines]
      · exact hkept
  | receive => exact ⟨hslots, hhandshakes, htcp, hmax, hmore, hloops, (Nat.sub_le _ _).trans herrors, hclosed, hkept.returned⟩
  | _ =>
    simp only [Pool.step]
    split_ifs
    all_goals first | exact hkept | constructor <;> grind [Pool.goroutines]

theorem sound_after (k : Kind) (c : Config) (inputs : List Input) : (Pool.after k c inputs).Sound k c := by
  apply run_invariant (Pool.step k c) (Pool.Sound k c) (sound_step k c)
  constructor <;> simp [Pool.start]

theorem endpoints_le (k : Kind) (c : Config) : k.endpoints c ≤ c.proxies.length := List.length_filter_le _ _

/-- `Close` is not taken back, and once it has returned nothing starts again. -/
theorem close_step (k : Kind) (c : Config) (s : Pool) (i : Input) :
    (s.close ≠ .notCalled → (s.step k c i).2.close ≠ .notCalled) ∧
      (s.close = .returned → (s.step k c i).2.close = .returned) := by
  unfold Pool.step
  split <;> simp only [Pool.choose, Pool.failed] <;> grind

/-- The servers keep within their limits: connections with a slot, and connections that are let in.
An accept loop never blocks on the channel of the errors, and a connection never blocks on giving
back what it holds. When `Close` has returned, no goroutine of the server is left, both channels are
empty, and this stays so. -/
theorem pool_limits (k : Kind) (c : Config) (inputs : List Input) :
    let s := Pool.after k c inputs
    s.serving ≤ slotLimit c ∧
      (k ≠ .tcp → s.entered + s.serving + s.leaving ≤ slotLimit c + 16) ∧
      (k = .tcp → s.entered + s.leaving = 0) ∧
      (0 < s.reporting → s.errors < c.proxies.length) ∧
      (0 < s.serving → 0 < s.slots) ∧ (0 < s.leaving → 0 < s.handshakes) ∧
      (s.close = .returned → ∀ more,
        (Pool.after k c (inputs ++ more)).goroutines = 0 ∧ (Pool.after k c (inputs ++ more)).slots = 0 ∧
          (Pool.after k c (inputs ++ more)).handshakes = 0) := by
  intro s
  have hs : s.Sound k c := sound_after k c inputs
  have hendpoints := endpoints_le k c
  have hlimit := hs.maxHandshakes
  rw [hs.handshakes] at hlimit
  refine ⟨hs.slots ▸ hs.maxSlots, fun hk => ?_, fun hk => ?_, fun hr => ?_, fun h => hs.slots ▸ h, fun h => ?_,
    fun hreturned more => ?_⟩
  · rw [if_neg hk] at hlimit
    unfold handshakeLimit at hlimit
    omega
  · have := hs.tcp hk
    omega
  · have := hs.loops
    have := hs.errors
    omega
  · have := hs.handshakes
    omega
  · have hmore := sound_after k c (inputs ++ more)
    have hlater : (Pool.after k c (inputs ++ more)).close = .returned := by
      unfold Pool.after
      rw [run_append]
      exact run_invariant (Pool.step k c) (fun s => s.close = .returned) (fun s i => (close_step k c s i).2) _
        hreturned more
    have hnone := hmore.returned hlater
    have hslots := hmore.slots
    have hhandshakes := hmore.handshakes
    unfold Pool.goroutines at hnone ⊢
    refine ⟨hnone, by omega, ?_⟩
    split_ifs at hhandshakes <;> omega

/-! `Close` returns. -/

/-- How many steps `Close` is from its return. -/
def Pool.work (s : Pool) : ℕ :=
  2*s.openWaiting + 7*s.openHolding + s.closedWaiting + 6*s.closedHolding + s.reporting + 4*s.entered +
    3*s.serving + s.leaving + (match s.close with
      | .notCalled => 3
      | .marked => 2
      | .cancelled => 1
      | .returned => 0)

/-- While `Close` waits there is a goroutine that can go on. -/
theorem progress (hs : s.Sound k c) (hcalled : s.close ≠ .notCalled) (hwaits : s.close ≠ .returned) :
    ∃ i, (s.step k c i).2.work < s.work := by
  have hendpoints := endpoints_le k c
  obtain ⟨hslots, hhandshakes, htcp, -, -, hloops, herrors, -, -⟩ := hs
  cases hclose : s.close with
  | notCalled => exact absurd hclose hcalled
  | returned => exact absurd hclose hwaits
  | marked => exact ⟨.cancel, by simp [Pool.step, Pool.work, hclose]⟩
  | cancelled =>
    by_cases h : 0 < s.openWaiting
    · exact ⟨.closeListener false, by simp [Pool.step, Pool.work, hclose, h]; omega⟩
    by_cases h : 0 < s.openHolding
    · exact ⟨.closeListener true, by simp [Pool.step, Pool.work, hclose, h]; omega⟩
    by_cases h : 0 < s.closedHolding
    · refine ⟨.choose false, ?_⟩
      simp only [Pool.step, Pool.choose, if_pos h]
      split_ifs <;> simp only [Pool.work, hclose] <;> omega
    by_cases h : 0 < s.closedWaiting
    · exact ⟨.fail false, by simp [Pool.step, Pool.failed, Pool.work, hclose, h]⟩
    by_cases h : 0 < s.reporting
    · have hroom : s.errors < c.proxies.length := by omega
      exact ⟨.report, by simp [Pool.step, Pool.work, hclose, h, hroom]⟩
    by_cases h : 0 < s.entered
    · by_cases hk : k = .postgresql
      · exact ⟨.abandon, by simp [Pool.step, Pool.work, hclose, h, hk]; omega⟩
      · refine ⟨.enter, ?_⟩
        simp only [Pool.step, if_pos h]
        split_ifs <;> simp only [Pool.work, hclose] <;> omega
    by_cases h : 0 < s.serving
    · refine ⟨.finish, ?_⟩
      simp only [Pool.step, if_pos (And.intro h (hslots ▸ h : 0 < s.slots)), Pool.work, hclose]
      split_ifs <;> omega
    by_cases h : 0 < s.leaving
    · exact ⟨.leave, by simp [Pool.step, Pool.work, hclose, h, (by omega : 0 < s.handshakes)]⟩
    · have hnone : s.goroutines = 0 := by
        unfold Pool.goroutines
        omega
      exact ⟨.wait, by simp [Pool.step, Pool.work, hclose, hnone]⟩

theorem returns (n : ℕ) (s : Pool) (hn : s.work ≤ n) (hs : s.Sound k c) (hcalled : s.close ≠ .notCalled) :
    ∃ rest : List Input, rest.length ≤ s.work ∧ (run (Pool.step k c) s rest).2.close = .returned := by
  induction n generalizing s with
  | zero =>
    refine ⟨[], Nat.zero_le _, ?_⟩
    by_contra hwaits
    obtain ⟨i, hi⟩ := progress hs hcalled hwaits
    omega
  | succ n ih =>
    by_cases hwaits : s.close = .returned
    · exact ⟨[], Nat.zero_le _, hwaits⟩
    obtain ⟨i, hi⟩ := progress hs hcalled hwaits
    obtain ⟨rest, hlength, hrest⟩ := ih (s.step k c i).2 (by omega) (sound_step k c s i hs)
      ((close_step k c s i).1 hcalled)
    refine ⟨i :: rest, ?_, hrest⟩
    rw [List.length_cons]
    omega

end Pools
end Faultline
