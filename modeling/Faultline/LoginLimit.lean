import Faultline.ManagedAnswers

/-! How often passwords can be tried at the managed server, and how many sessions it keeps. -/
namespace Faultline
namespace Managed

section Runs
variable {lib : Library} {y : Yaml} {web : Web}

theorem serveAll_spent (s : Server) (h : s.loginCount ≤ 20) (a : ℕ) (events : List (Request × Moment))
    (hspan : ∀ e ∈ events, a ≤ e.2.now ∧ e.2.now < a + minute) :
    FixedWindow.Spent 20 a s.limiter (serveAll lib y web s events).2.limiter
      ((serveAll lib y web s events).1.countP (fun x => tellsPassword x.request x.response)) := by
  induction events using List.reverseRecOn with
  | nil => exact ⟨h, Or.inl ⟨rfl, le_rfl⟩⟩
  | append_singleton events e ih =>
    have hbefore := ih (fun e he => hspan e (List.mem_append_left _ he))
    obtain ⟨ha, hnow⟩ := hspan e (List.mem_append_right _ (List.mem_singleton_self e))
    rw [serveAll_snoc]
    have hstep := hbefore.step ((@serveHTTP_answers lib y web e.1 e.2 _).2.2 hbefore.1) ha hnow
    simpa only [serveNext, List.countP_append, List.countP_singleton, Bool.toNat, Bool.cond_eq_ite] using hstep

theorem start_count {b : Boot} {file : DurableFile State} {first : Server}
    (h : (start lib y b file).1 = some first) : first.loginCount = 0 := by
  unfold start newServer at h
  repeat' split at h
  all_goals cases h
  rename_i hserver
  split_ifs at hserver
  split at hserver
  all_goals cases hserver
  rfl

/-- A server that has started answers at most forty requests in less than a minute with whether a
password is right, over all clients, and never keeps more than 256 sessions. -/
theorem login_law (lib : Library) (y : Yaml) (web : Web) (b : Boot) (file : DurableFile State) (first : Server)
    (hstart : (start lib y b file).1 = some first) (before during : List (Request × Moment)) (a : ℕ)
    (hspan : ∀ e ∈ during, a ≤ e.2.now ∧ e.2.now < a + minute) :
    (serveAll lib y web (serveAll lib y web first before).2 during).1.countP
        (fun x => tellsPassword x.request x.response) ≤ 40 ∧
      (serveAll lib y web (serveAll lib y web first before).2 during).2.sessions.size ≤ 256 := by
  have hcount : (serveAll lib y web first before).2.loginCount ≤ 20 := by
    apply serveAll_rule lib y web (P := fun _ s => s.loginCount ≤ 20) first
    · rw [start_count hstart]
      exact Nat.zero_le _
    · intro _ s r m hs
      exact ((@serveHTTP_answers lib y web r m s).2.2 hs).limited
  have hsize (s : Server) (hs : s.sessions.size ≤ 256) (events : List (Request × Moment)) :
      (serveAll lib y web s events).2.sessions.size ≤ 256 := by
    apply serveAll_rule lib y web (P := fun _ s => s.sessions.size ≤ 256) s hs
    intro _ s r m hs
    exact (@serveHTTP_answers lib y web r m s).2.1.trans (max_le hs le_rfl)
  constructor
  · exact (serveAll_spent _ hcount a during hspan).le
  · apply hsize
    apply hsize
    rw [(start_fresh hstart).sessions]
    exact Nat.zero_le _

theorem login_law_sample : ∃ first, (start standardLibrary sampleYaml sampleBoot sampleFile).1 = some first ∧
    (serveAll standardLibrary sampleYaml sampleWeb (serveAll standardLibrary sampleYaml sampleWeb first []).2
      [sampleLogin]).1.countP (fun x => tellsPassword x.request x.response) ≤ 40 := by
  obtain ⟨first, hfirst⟩ := sample_started
  refine ⟨first, hfirst, (login_law _ _ _ _ _ first hfirst [] [sampleLogin] 0 ?_).1⟩
  intro e he
  rw [List.mem_singleton.mp he]
  decide

end Runs

end Managed
end Faultline
