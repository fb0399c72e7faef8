import Mathlib

/-! Printers whose texts can be told apart when something follows them. A printer is a prefix
code on a set of values if the text of a value says where it ends, as long as what follows begins
as `stop` allows. Lists of such values with a separator and a closing mark are again one. -/
namespace Faultline
variable {α β χ : Type} {stop : List χ → Prop} {print : α → Option (List χ)} {F G : Set α}

def PrefixCode (stop : List χ → Prop) (print : α → Option (List χ)) (F : Set α) : Prop :=
  ∀ a ∈ F, ∀ b ∈ F, ∀ t u r s, print a = some t → print b = some u → stop r → stop s →
    t ++ r = u ++ s → a = b ∧ r = s

theorem PrefixCode.injective (h : PrefixCode stop print F) (hnil : stop []) (a b : α) (ha : a ∈ F)
    (hb : b ∈ F) (t : List χ) (hta : print a = some t) (htb : print b = some t) : a = b :=
  (h a ha b hb t t [] [] hta htb hnil hnil rfl).1

/-- Texts of one kind of symbol end at the first symbol of another kind. -/
theorem prefixCode_of_all (Q : χ → Bool) (hprint : ∀ a ∈ F, ∀ t, print a = some t → ∀ c ∈ t, Q c = true)
    (hinj : ∀ a ∈ F, ∀ b ∈ F, ∀ t, print a = some t → print b = some t → a = b) :
    PrefixCode (fun r => ∀ c ∈ r.head?, Q c = false) print F := by
  intro a ha b hb t u r s ht hu hr hs heq
  have hspan (w v : List χ) (hw : ∀ c ∈ w, Q c = true) (hv : ∀ c ∈ v.head?, Q c = false) :
      (w ++ v).takeWhile Q = w ∧ (w ++ v).dropWhile Q = v := by
    rw [List.takeWhile_append_of_pos hw, List.dropWhile_append_of_pos hw]
    cases v with
    | nil => simp
    | cons c v =>
      have hc := hv c rfl
      simp [hc]
  obtain ⟨htake, hdrop⟩ := hspan t r (hprint a ha t ht) hr
  obtain ⟨htake', hdrop'⟩ := hspan u s (hprint b hb u hu) hs
  have htu : t = u := by rw [← htake, heq, htake']
  have hrs : r = s := by rw [← hdrop, heq, hdrop']
  subst htu
  exact ⟨hinj a ha b hb t ht hu, hrs⟩

theorem PrefixCode.insert (h : PrefixCode stop print F) (a : α) (c : χ)
    (ha : ∀ t, print a = some t → t.head? = some c)
    (hF : ∀ b ∈ F, b ≠ a → ∀ t, print b = some t → ∃ d, t.head? = some d ∧ d ≠ c) :
    PrefixCode stop print (Insert.insert a F) := by
  -- a text of `a` is no beginning of what another value prints
  have hdiffer (b : α) (hb : b ∈ F) (hne : b ≠ a) (t u r s : List χ) (ht : print a = some t)
      (hu : print b = some u) (heq : t ++ r = u ++ s) : False := by
    have ht' := ha t ht
    obtain ⟨d, hu', hd⟩ := hF b hb hne u hu
    have hheads : (t ++ r).head? = (u ++ s).head? := congrArg List.head? heq
    rw [List.head?_append, List.head?_append, ht', hu'] at hheads
    exact hd (Option.some.inj hheads).symm
  intro x hx y hy t u r s ht hu hr hs heq
  by_cases hxa : x = a
  · by_cases hya : y = a
    · subst hxa hya
      rw [ht] at hu
      cases hu
      exact ⟨rfl, List.append_cancel_left heq⟩
    · subst hxa
      exact (hdiffer y (hy.resolve_left hya) hya t u r s ht hu heq).elim
  · by_cases hya : y = a
    · subst hya
      exact (hdiffer x (hx.resolve_left hxa) hxa u t s r hu ht heq.symm).elim
    · exact h x (hx.resolve_left hxa) y (hy.resolve_left hya) t u r s ht hu hr hs heq

/-! Lists. -/

def tailText (sep : χ) (ts : List (List χ)) : List χ := ts.flatMap (sep :: ·)

theorem tailText_cons (sep : χ) (t : List χ) (ts : List (List χ)) :
    tailText sep (t :: ts) = sep :: (t ++ tailText sep ts) := rfl

theorem intercalate_cons (sep : χ) (t : List χ) (ts : List (List χ)) :
    [sep].intercalate (t :: ts) = t ++ tailText sep ts := by
  induction ts generalizing t with
  | nil => simp [tailText]
  | cons u ts ih =>
    rw [List.intercalate_cons_cons, ih]
    simp [tailText]

theorem mapM_cons_some (print : α → Option β) (a : α) (l : List α) (ts : List β)
    (h : (a :: l).mapM print = some ts) : ∃ t us, print a = some t ∧ l.mapM print = some us ∧ ts = t :: us := by
  simp only [List.mapM_cons, Option.bind_eq_bind, Option.bind_eq_some_iff, Option.pure_def,
    Option.some.injEq] at h
  obtain ⟨t, ht, us, hus, rfl⟩ := h
  exact ⟨t, us, ht, hus, rfl⟩

section Lists
variable {sep close : χ}

theorem PrefixCode.tail (h : PrefixCode stop print F) (hsep : ∀ r, stop (sep :: r))
    (hclose : ∀ r, stop (close :: r)) (hne : sep ≠ close) (l m : List α) (hl : ∀ a ∈ l, a ∈ F)
    (hm : ∀ a ∈ m, a ∈ F) (ts us : List (List χ)) (r s : List χ) (hts : l.mapM print = some ts)
    (hus : m.mapM print = some us)
    (heq : tailText sep ts ++ close :: r = tailText sep us ++ close :: s) : l = m ∧ r = s := by
  have hstop (ws : List (List χ)) (r : List χ) : stop (tailText sep ws ++ close :: r) := by
    cases ws with
    | nil => exact hclose r
    | cons w ws => exact hsep _
  induction l generalizing m ts us with
  | nil =>
    have hnil : ts = [] := by simpa using hts.symm
    subst hnil
    cases m with
    | nil =>
      have hnil' : us = [] := by simpa using hus.symm
      subst hnil'
      exact ⟨rfl, List.tail_eq_of_cons_eq heq⟩
    | cons b m =>
      obtain ⟨u, us', -, -, rfl⟩ := mapM_cons_some print b m us hus
      exact absurd (List.head_eq_of_cons_eq heq) hne.symm
  | cons a l ih =>
    obtain ⟨t, ts', ht, hts', rfl⟩ := mapM_cons_some print a l ts hts
    cases m with
    | nil =>
      have hnil' : us = [] := by simpa using hus.symm
      subst hnil'
      exact absurd (List.head_eq_of_cons_eq heq) hne
    | cons b m =>
      obtain ⟨u, us', hu, hus', rfl⟩ := mapM_cons_some print b m us hus
      have hrest : t ++ (tailText sep ts' ++ close :: r) = u ++ (tailText sep us' ++ close :: s) := by
        rw [tailText_cons, tailText_cons] at heq
        have htail := List.tail_eq_of_cons_eq heq
        rwa [List.append_eq, List.append_eq, List.append_assoc, List.append_assoc] at htail
      obtain ⟨hab, htails⟩ := h a (hl a List.mem_cons_self) b (hm b List.mem_cons_self) t u _ _ ht hu
        (hstop ts' r) (hstop us' s) hrest
      obtain ⟨hlm, hrs⟩ := ih m (fun c hc => hl c (List.mem_cons_of_mem _ hc))
        (fun c hc => hm c (List.mem_cons_of_mem _ hc)) ts' us' hts' hus' htails
      exact ⟨by rw [hab, hlm], hrs⟩

theorem PrefixCode.list (h : PrefixCode stop print F) (hsep : ∀ r, stop (sep :: r))
    (hclose : ∀ r, stop (close :: r)) (hne : sep ≠ close)
    (hhead : ∀ a ∈ F, ∀ t, print a = some t → ∃ c, t.head? = some c ∧ c ≠ close) :
    PrefixCode (fun _ => True)
      (fun l : List α => (l.mapM print).map (fun ts => [sep].intercalate ts ++ [close]))
      {l | ∀ a ∈ l, a ∈ F} := by
  have hopen (a : α) (ha : a ∈ F) (t v r s : List χ) (ht : print a = some t)
      (heq : close :: r = t ++ v ++ s) : False := by
    obtain ⟨c, hc, hcne⟩ := hhead a ha t ht
    have hheads := congrArg List.head? heq
    rw [List.append_assoc, List.head?_append, hc] at hheads
    exact hcne (Option.some.inj hheads).symm
  have hstop (ws : List (List χ)) (r : List χ) : stop (tailText sep ws ++ close :: r) := by
    cases ws with
    | nil => exact hclose r
    | cons w ws => exact hsep _
  intro l hl m hm t u r s ht hu _ _ heq
  obtain ⟨ts, hts, rfl⟩ := Option.map_eq_some_iff.mp ht
  obtain ⟨us, hus, rfl⟩ := Option.map_eq_some_iff.mp hu
  cases l with
  | nil =>
    have hnil : ts = [] := by simpa using hts.symm
    subst hnil
    cases m with
    | nil =>
      have hnil' : us = [] := by simpa using hus.symm
      subst hnil'
      exact ⟨rfl, by simpa using heq⟩
    | cons b m =>
      obtain ⟨u, us', hu', -, rfl⟩ := mapM_cons_some print b m us hus
      rw [intercalate_cons] at heq
      exact (hopen b (hm b List.mem_cons_self) u (tailText sep us') r ([close] ++ s) hu'
        (by simpa using heq)).elim
  | cons a l =>
    obtain ⟨t, ts', ht', hts', rfl⟩ := mapM_cons_some print a l ts hts
    cases m with
    | nil =>
      have hnil' : us = [] := by simpa using hus.symm
      subst hnil'
      rw [intercalate_cons] at heq
      exact (hopen a (hl a List.mem_cons_self) t (tailText sep ts') s ([close] ++ r) ht'
        (by simpa using heq.symm)).elim
    | cons b m =>
      obtain ⟨u, us', hu', hus', rfl⟩ := mapM_cons_some print b m us hus
      rw [intercalate_cons, intercalate_cons] at heq
      have hrest : t ++ (tailText sep ts' ++ close :: r) = u ++ (tailText sep us' ++ close :: s) := by
        simpa using heq
      obtain ⟨hab, htails⟩ := h a (hl a List.mem_cons_self) b (hm b List.mem_cons_self) t u _ _ ht' hu'
        (hstop ts' r) (hstop us' s) hrest
      obtain ⟨hlm, hrs⟩ := h.tail hsep hclose hne l m (fun c hc => hl c (List.mem_cons_of_mem _ hc))
        (fun c hc => hm c (List.mem_cons_of_mem _ hc)) ts' us' r s hts' hus' htails
      exact ⟨by rw [hab, hlm], hrs⟩

end Lists

end Faultline
