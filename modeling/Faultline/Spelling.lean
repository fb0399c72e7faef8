import Mathlib.Data.List.Basic
import Mathlib.Tactic

/-! Texts that spell given words, with spaces around and between them and at most one closing mark.
A reader who trims a text and splits it into fields accepts exactly these. -/
namespace Faultline
variable {α β γ : Type}

/-- The words of a text are separated by one or more spaces; `upper` is how a letter is compared. -/
inductive Spaced (space : α → Bool) (upper : α → β) : List (List β) → List α → Prop
  | last (w : List α) : Spaced space upper [w.map upper] w
  | more (w gap rest : List α) (ws : List (List β)) (nonempty : gap ≠ [])
      (spaces : ∀ c ∈ gap, space c = true) (h : Spaced space upper ws rest) :
      Spaced space upper (w.map upper :: ws) (w ++ (gap ++ rest))

def Spells (space : α → Bool) (upper : α → β) (mark : α) (ws : List (List β)) (s : List α) : Prop :=
  ∃ lead body gap close trail, s = lead ++ (body ++ (gap ++ (close ++ trail))) ∧
    Spaced space upper ws body ∧ (close = [] ∨ close = [mark]) ∧
    (∀ c ∈ lead, space c = true) ∧ (∀ c ∈ gap, space c = true) ∧ ∀ c ∈ trail, space c = true

def trim (space : α → Bool) (s : List α) : List α :=
  ((s.dropWhile space).reverse.dropWhile space).reverse

def fields [DecidableEq α] (space : α → Bool) (s : List α) : List (List α) :=
  (s.splitOnP space).filter (· ≠ [])

def Word (space : α → Bool) (mark : α) (w : List α) : Prop :=
  w ≠ [] ∧ (∀ c ∈ w, space c = false) ∧ mark ∉ w

section Ends
variable {space : α → Bool}

theorem span_kind (P : α → Bool) (s : List α) : ∃ a b, s = a ++ b ∧ (∀ c ∈ a, P c = true) ∧
    ∀ c ∈ b.head?, P c = false := by
  refine ⟨s.takeWhile P, s.dropWhile P, (List.takeWhile_append_dropWhile).symm,
    fun c hc => List.all_eq_true.mp List.all_takeWhile c hc, ?_⟩
  intro c hc
  have hnot := List.head?_dropWhile_not P s
  rw [Option.mem_def.mp hc] at hnot
  simpa using hnot

theorem spaced_first (ws : List (List α)) (body : List α) (h : Spaced space id ws body)
    (hws : ∀ w ∈ ws, w ≠ [] ∧ ∀ c ∈ w, space c = false) : ∃ c, body.head? = some c ∧ space c = false := by
  have hword (w rest : List α) (hw : w ≠ [] ∧ ∀ c ∈ w, space c = false) :
      ∃ c, (w ++ rest).head? = some c ∧ space c = false := by
    obtain ⟨c, cs, rfl⟩ := List.exists_cons_of_ne_nil hw.1
    exact ⟨c, rfl, hw.2 c List.mem_cons_self⟩
  cases h with
  | last =>
    rw [List.map_id] at hws
    have hfirst := hword body [] (hws body List.mem_cons_self)
    rwa [List.append_nil] at hfirst
  | more w between rest ws _ _ _ =>
    rw [List.map_id] at hws
    exact hword w _ (hws w List.mem_cons_self)

theorem spaced_last (mark : α) (ws : List (List α)) (body : List α) (h : Spaced space id ws body)
    (hws : ∀ w ∈ ws, Word space mark w) : ∃ c, body.getLast? = some c ∧ space c = false ∧ c ≠ mark := by
  induction h with
  | last w =>
    rw [List.map_id] at hws
    obtain ⟨hne, hw, hmark⟩ := hws w List.mem_cons_self
    have hmem := List.getLast_mem hne
    exact ⟨w.getLast hne, List.getLast?_eq_some_getLast hne, hw _ hmem, fun heq => hmark (heq ▸ hmem)⟩
  | more w between rest ws _ _ _ ih =>
    obtain ⟨c, hc, hrest⟩ := ih (fun v hv => hws v (List.mem_cons_of_mem _ hv))
    refine ⟨c, ?_, hrest⟩
    rw [List.getLast?_append, List.getLast?_append, hc]
    rfl

theorem trim_spec (space : α → Bool) (s : List α) : ∃ lead trail, s = lead ++ (trim space s ++ trail) ∧
    (∀ c ∈ lead, space c = true) ∧ ∀ c ∈ trail, space c = true := by
  let m := s.dropWhile space
  refine ⟨s.takeWhile space, (m.reverse.takeWhile space).reverse, ?_,
    fun c hc => List.all_eq_true.mp List.all_takeWhile c hc, ?_⟩
  · have hm : m = trim space s ++ (m.reverse.takeWhile space).reverse := by
      rw [trim, ← List.reverse_append, List.takeWhile_append_dropWhile, List.reverse_reverse]
    rw [← hm]
    exact List.takeWhile_append_dropWhile.symm
  · intro c hc
    exact List.all_eq_true.mp List.all_takeWhile c (List.mem_reverse.mp hc)

theorem trim_eq (lead t trail : List α) (hlead : ∀ c ∈ lead, space c = true)
    (htrail : ∀ c ∈ trail, space c = true) (a b : α) (ha : t.head? = some a) (hb : t.getLast? = some b)
    (hsa : space a = false) (hsb : space b = false) : trim space (lead ++ (t ++ trail)) = t := by
  have hstop (u : List α) (c : α) (hu : u.head? = some c) (hc : space c = false) : u.dropWhile space = u := by
    cases u with
    | nil => rfl
    | cons d u =>
      cases hu
      exact List.dropWhile_cons_of_neg (by simp [hc])
  have hhead : (t ++ trail).head? = some a := by
    rw [List.head?_append, ha]
    rfl
  have hrev : t.reverse.head? = some b := by rw [List.head?_reverse, hb]
  rw [trim, List.dropWhile_append_of_pos hlead, hstop _ a hhead hsa, List.reverse_append,
    List.dropWhile_append_of_pos (fun c hc => htrail c (List.mem_reverse.mp hc)), hstop _ b hrev hsb,
    List.reverse_reverse]

theorem trim_map (f : α → γ) (space' : γ → Bool) (hspace : ∀ c, space' (f c) = space c) (s : List α) :
    trim space' (s.map f) = (trim space s).map f := by
  have hcomp : space' ∘ f = space := funext hspace
  rw [trim, trim, List.dropWhile_map, hcomp, ← List.map_reverse, List.dropWhile_map, hcomp, List.map_reverse]

theorem mem_splitOnP (s e : List α) (he : e ∈ s.splitOnP space) : ∀ c ∈ e, space c = false := by
  induction s generalizing e with
  | nil =>
    rw [List.splitOnP_nil, List.mem_singleton] at he
    simp [he]
  | cons d s ih =>
    rw [List.splitOnP_cons_eq_if_modifyHead] at he
    by_cases hd : space d = true
    · rw [if_pos hd] at he
      rcases List.mem_cons.mp he with rfl | he
      · simp
      · exact ih e he
    · obtain ⟨r, rs, hr⟩ := List.exists_cons_of_ne_nil (List.splitOnP_ne_nil space s)
      rw [if_neg hd, hr, List.modifyHead_cons] at he
      rcases List.mem_cons.mp he with rfl | he
      · intro c hc
        rcases List.mem_cons.mp hc with rfl | hc
        · exact Bool.eq_false_iff.mpr hd
        · exact ih r (by rw [hr]; exact List.mem_cons_self) c hc
      · exact ih e (by rw [hr]; exact List.mem_cons_of_mem _ he)

end Ends

section Fields
variable [DecidableEq α] {space : α → Bool}

theorem fields_cons_space (c : α) (s : List α) (hc : space c = true) : fields space (c :: s) = fields space s := by
  rw [fields, List.splitOnP_cons_eq_if_modifyHead, if_pos hc, List.filter_cons_of_neg (by simp), fields]

theorem fields_spaces (a s : List α) (ha : ∀ c ∈ a, space c = true) : fields space (a ++ s) = fields space s := by
  induction a with
  | nil => rfl
  | cons c a ih =>
    rw [List.cons_append, fields_cons_space c _ (ha c List.mem_cons_self)]
    exact ih (fun d hd => ha d (List.mem_cons_of_mem _ hd))

theorem fields_eq_nil (s : List α) (h : fields space s = []) : ∀ c ∈ s, space c = true := by
  induction s with
  | nil => simp
  | cons c s ih =>
    by_cases hc : space c = true
    · rw [fields_cons_space c s hc] at h
      intro d hd
      rcases List.mem_cons.mp hd with rfl | hd
      · exact hc
      · exact ih h d hd
    · rw [fields, List.splitOnP_cons_eq_if_modifyHead, if_neg hc] at h
      cases hsplit : s.splitOnP space with
      | nil => exact absurd hsplit (List.splitOnP_ne_nil _ _)
      | cons e es =>
        rw [hsplit, List.modifyHead_cons, List.filter_cons_of_pos (by simp)] at h
        cases h

theorem mem_fields (s w : List α) (h : w ∈ fields space s) : ∀ c ∈ w, space c = false :=
  mem_splitOnP s w (List.mem_filter.mp h).1

theorem fields_word (w s : List α) (hne : w ≠ []) (hw : ∀ c ∈ w, space c = false)
    (hs : ∀ c ∈ s.head?, space c = true) : fields space (w ++ s) = w :: fields space s := by
  cases s with
  | nil =>
    rw [List.append_nil, fields, List.splitOnP_eq_singleton hw, List.filter_cons_of_pos (by simpa using hne)]
    rfl
  | cons c s =>
    have hc := hs c rfl
    rw [fields_cons_space c s hc, fields, List.splitOnP_append_cons_of_forall_mem hw c hc,
      List.filter_cons_of_pos (by simpa using hne), fields]

theorem fields_append_spaces (s a : List α) (ha : ∀ c ∈ a, space c = true) :
    fields space (s ++ a) = fields space s := by
  cases a with
  | nil => rw [List.append_nil]
  | cons c a =>
    have hrest := fields_spaces a [] (fun d hd => ha d (List.mem_cons_of_mem _ hd))
    have hnil : fields space ([] : List α) = [] := rfl
    rw [List.append_nil, hnil] at hrest
    rw [fields, List.splitOnP_append_cons _ _ (ha c List.mem_cons_self), List.filter_append]
    change fields space s ++ fields space a = fields space s
    rw [hrest, List.append_nil]

theorem fields_of_spaced (ws : List (List α)) (body gap : List α) (h : Spaced space id ws body)
    (hws : ∀ w ∈ ws, w ≠ [] ∧ ∀ c ∈ w, space c = false) (hgap : ∀ c ∈ gap, space c = true) :
    fields space (body ++ gap) = ws := by
  induction h with
  | last w =>
    rw [List.map_id] at hws ⊢
    obtain ⟨hne, hw⟩ := hws w List.mem_cons_self
    rw [fields_append_spaces w gap hgap, ← List.append_nil w,
      fields_word w [] hne hw (by intro c hc; cases hc), List.append_nil]
    rfl
  | more w between rest ws hne hbetween _ ih =>
    rw [List.map_id] at hws ⊢
    obtain ⟨hwne, hw⟩ := hws w List.mem_cons_self
    have hhead : ∀ c ∈ (between ++ (rest ++ gap)).head?, space c = true := by
      obtain ⟨d, ds, rfl⟩ := List.exists_cons_of_ne_nil hne
      intro c hc
      cases hc
      exact hbetween d List.mem_cons_self
    rw [List.append_assoc, List.append_assoc, fields_word w _ hwne hw hhead, fields_spaces between _ hbetween,
      ih (fun v hv => hws v (List.mem_cons_of_mem _ hv))]

/-- The words of a text, back from its fields. The induction is on the list of words. -/
theorem spaced_of_fields (ws : List (List α)) (hne : ws ≠ [])
    (hws : ∀ w ∈ ws, w ≠ [] ∧ ∀ c ∈ w, space c = false) (s : List α) (h : fields space s = ws) :
    ∃ lead body gap, s = lead ++ (body ++ gap) ∧ Spaced space id ws body ∧
      (∀ c ∈ lead, space c = true) ∧ ∀ c ∈ gap, space c = true := by
  induction ws generalizing s with
  | nil => exact absurd rfl hne
  | cons w ws ih =>
    obtain ⟨lead, s', rfl, hlead, hhead⟩ := span_kind space s
    obtain ⟨v, rest, rfl, hv, hrest⟩ := span_kind (fun c => !space c) s'
    have hrest' : ∀ c ∈ rest.head?, space c = true := fun c hc => by simpa using hrest c hc
    have hvne : v ≠ [] := by
      -- otherwise there is no word at all
      rintro rfl
      cases rest with
      | nil =>
        rw [List.append_nil, fields_spaces lead _ hlead] at h
        cases h
      | cons c rest =>
        have hnot := hhead c rfl
        rw [hrest' c rfl] at hnot
        cases hnot
    rw [fields_spaces lead _ hlead, fields_word v rest hvne (fun c hc => by simpa using hv c hc) hrest'] at h
    obtain ⟨rfl, hfields⟩ := List.cons.inj h
    cases ws with
    | nil =>
      refine ⟨lead, v, rest, rfl, ?_, hlead, fields_eq_nil rest hfields⟩
      have hlast := @Spaced.last α α space id v
      rwa [List.map_id] at hlast
    | cons w' ws =>
      obtain ⟨between, body, gap, rfl, hbody, hbetween, hgap⟩ := ih (by simp)
        (fun u hu => hws u (List.mem_cons_of_mem _ hu)) rest hfields
      have hne' : between ≠ [] := by
        rintro rfl
        obtain ⟨c, hc, hspace⟩ := spaced_first _ body hbody (fun u hu => hws u (List.mem_cons_of_mem _ hu))
        have hfirst := hrest' c (by rw [List.nil_append, List.head?_append, hc]; rfl)
        rw [hspace] at hfirst
        cases hfirst
      have hmore := Spaced.more v between body (w' :: ws) hne' hbetween hbody
      rw [List.map_id] at hmore
      exact ⟨lead, _, gap, by simp only [List.append_assoc], hmore, hlead, hgap⟩

theorem fields_trim (s : List α) : fields space (trim space s) = fields space s := by
  obtain ⟨lead, trail, hs, hlead, htrail⟩ := trim_spec space s
  conv_rhs => rw [hs, fields_spaces lead _ hlead, fields_append_spaces _ trail htrail]

def trimMark (mark : α) (s : List α) : List α := if s.getLast? = some mark then s.dropLast else s

theorem fields_trim_iff (mark : α) (hmark : space mark = false) (ws : List (List α)) (hne : ws ≠ [])
    (hws : ∀ w ∈ ws, Word space mark w) (s : List α) :
    fields space (trim space (trimMark mark (trim space s))) = ws ↔ Spells space id mark ws s := by
  have hws' : ∀ w ∈ ws, w ≠ [] ∧ ∀ c ∈ w, space c = false := fun w hw => ⟨(hws w hw).1, (hws w hw).2.1⟩
  rw [fields_trim]
  constructor
  · intro h
    obtain ⟨lead, trail, hs, hlead, htrail⟩ := trim_spec space s
    have hspells (t close : List α) (ht : trim space s = t ++ close) (hclose : close = [] ∨ close = [mark])
        (hfields : fields space t = ws) : Spells space id mark ws s := by
      obtain ⟨lead', body, gap, rfl, hbody, hlead', hgap⟩ := spaced_of_fields ws hne hws' t hfields
      refine ⟨lead ++ lead', body, gap, close, trail, ?_, hbody, hclose, ?_, hgap, htrail⟩
      · conv_lhs => rw [hs, ht]
        simp only [List.append_assoc]
      · intro c hc
        exact (List.mem_append.mp hc).elim (hlead c) (hlead' c)
    unfold trimMark at h
    split_ifs at h with hlast
    · obtain ⟨t, ht⟩ := List.getLast?_eq_some_iff.mp hlast
      rw [ht, List.dropLast_concat] at h
      exact hspells t [mark] ht (Or.inr rfl) h
    · exact hspells (trim space s) [] (List.append_nil _).symm (Or.inl rfl) h
  · rintro ⟨lead, body, gap, close, trail, rfl, hbody, hclose, hlead, hgap, htrail⟩
    obtain ⟨a, ha, hsa⟩ := spaced_first ws body hbody hws'
    obtain ⟨b, hb, hsb, hbmark⟩ := spaced_last mark ws body hbody hws
    rcases hclose with rfl | rfl
    · have htrim : trim space (lead ++ (body ++ (gap ++ ([] ++ trail)))) = body := by
        refine trim_eq lead body _ hlead ?_ a b ha hb hsa hsb
        intro c hc
        exact (List.mem_append.mp hc).elim (hgap c) (htrail c)
      have hkeep : trimMark mark body = body := by
        apply if_neg
        rw [hb]
        intro heq
        exact hbmark (Option.some.inj heq)
      have hfields := fields_of_spaced ws body [] hbody hws' (by simp)
      rw [List.append_nil] at hfields
      rw [htrim, hkeep, hfields]
    · have hshape : lead ++ (body ++ (gap ++ ([mark] ++ trail))) = lead ++ ((body ++ gap ++ [mark]) ++ trail) := by
        simp only [List.append_assoc]
      have hfirst : (body ++ gap ++ [mark]).head? = some a := by
        rw [List.append_assoc, List.head?_append, ha]
        rfl
      have htrim := trim_eq lead (body ++ gap ++ [mark]) trail hlead htrail a mark hfirst
        List.getLast?_concat hsa hmark
      have hcut : trimMark mark (body ++ gap ++ [mark]) = body ++ gap := by
        rw [trimMark, if_pos List.getLast?_concat, List.dropLast_concat]
      rw [hshape, htrim, hcut]
      exact fields_of_spaced ws body gap hbody hws' hgap

end Fields

/-! Other alphabets. -/

section Map
variable {space : α → Bool} {upper : α → β} {space' : γ → Bool} {upper' : γ → β} {f : α → γ}

theorem spaced_map (ws : List (List β)) (s : List α) (h : Spaced space upper ws s)
    (hspace : ∀ c ∈ s, space' (f c) = space c) (hupper : ∀ c ∈ s, upper' (f c) = upper c) :
    Spaced space' upper' ws (s.map f) := by
  have hword (w : List α) (hw : ∀ c ∈ w, upper' (f c) = upper c) : (w.map f).map upper' = w.map upper := by
    rw [List.map_map]
    exact List.map_congr_left hw
  induction h with
  | last w =>
    rw [← hword w hupper]
    exact .last _
  | more w gap rest ws hne hgap _ ih =>
    rw [← hword w (fun c hc => hupper c (List.mem_append_left _ hc)), List.map_append, List.map_append]
    refine .more _ _ _ ws (by simpa using hne) ?_ (ih ?_ ?_)
    · intro d hd
      obtain ⟨c, hc, rfl⟩ := List.mem_map.mp hd
      rw [hspace c (List.mem_append_right _ (List.mem_append_left _ hc))]
      exact hgap c hc
    · exact fun c hc => hspace c (List.mem_append_right _ (List.mem_append_right _ hc))
    · exact fun c hc => hupper c (List.mem_append_right _ (List.mem_append_right _ hc))

theorem spaced_of_map (ws : List (List β)) (t : List γ) (h : Spaced space' upper' ws t) (s : List α)
    (ht : t = s.map f) (hspace : ∀ c ∈ s, space' (f c) = space c)
    (hupper : ∀ c ∈ s, upper' (f c) = upper c) : Spaced space upper ws s := by
  have hword (w : List α) (hw : ∀ c ∈ w, upper' (f c) = upper c) : (w.map f).map upper' = w.map upper := by
    rw [List.map_map]
    exact List.map_congr_left hw
  induction h generalizing s with
  | last w =>
    subst ht
    rw [hword s hupper]
    exact .last s
  | more w gap rest ws hne hgap _ ih =>
    obtain ⟨a, s', rfl, rfl, hs'⟩ := List.map_eq_append_iff.mp ht.symm
    obtain ⟨b, r, rfl, rfl, rfl⟩ := List.map_eq_append_iff.mp hs'
    rw [hword a (fun c hc => hupper c (List.mem_append_left _ hc))]
    refine .more a b r ws (by simpa using hne) ?_ (ih r rfl ?_ ?_)
    · intro c hc
      rw [← hspace c (List.mem_append_right _ (List.mem_append_left _ hc))]
      exact hgap _ (List.mem_map_of_mem hc)
    · exact fun c hc => hspace c (List.mem_append_right _ (List.mem_append_right _ hc))
    · exact fun c hc => hupper c (List.mem_append_right _ (List.mem_append_right _ hc))

theorem spells_map_iff (mark : α) (mark' : γ) (ws : List (List β)) (s : List α)
    (hspace : ∀ c ∈ s, space' (f c) = space c) (hupper : ∀ c ∈ s, upper' (f c) = upper c)
    (hmark : ∀ c ∈ s, f c = mark' ↔ c = mark) :
    Spells space' upper' mark' ws (s.map f) ↔ Spells space upper mark ws s := by
  constructor
  · rintro ⟨lead, body, gap, close, trail, hs, hbody, hclose, hlead, hgap, htrail⟩
    obtain ⟨a, s₁, rfl, rfl, hs₁⟩ := List.map_eq_append_iff.mp hs
    obtain ⟨b, s₂, rfl, rfl, hs₂⟩ := List.map_eq_append_iff.mp hs₁
    obtain ⟨g, s₃, rfl, rfl, hs₃⟩ := List.map_eq_append_iff.mp hs₂
    obtain ⟨k, t, rfl, rfl, rfl⟩ := List.map_eq_append_iff.mp hs₃
    have hback (x : List α) (hx : ∀ c ∈ x, c ∈ a ++ (b ++ (g ++ (k ++ t))))
        (h : ∀ c ∈ x.map f, space' c = true) : ∀ c ∈ x, space c = true := by
      intro c hc
      rw [← hspace c (hx c hc)]
      exact h _ (List.mem_map_of_mem hc)
    refine ⟨a, b, g, k, t, rfl, ?_, ?_, hback a ?_ hlead, hback g ?_ hgap, hback t ?_ htrail⟩
    · exact spaced_of_map ws _ hbody b rfl (fun c hc => hspace c (by simp [hc])) (fun c hc => hupper c (by simp [hc]))
    · refine hclose.imp List.map_eq_nil_iff.mp ?_
      intro hk
      obtain ⟨c, rfl, hc⟩ := List.map_eq_singleton_iff.mp hk
      rw [(hmark c (by simp)).mp hc]
    · exact fun c hc => by simp [hc]
    · exact fun c hc => by simp [hc]
    · exact fun c hc => by simp [hc]
  · rintro ⟨a, b, g, k, t, rfl, hbody, hclose, hlead, hgap, htrail⟩
    have hforth (x : List α) (hx : ∀ c ∈ x, c ∈ a ++ (b ++ (g ++ (k ++ t))))
        (h : ∀ c ∈ x, space c = true) : ∀ c ∈ x.map f, space' c = true := by
      intro d hd
      obtain ⟨c, hc, rfl⟩ := List.mem_map.mp hd
      rw [hspace c (hx c hc)]
      exact h c hc
    refine ⟨a.map f, b.map f, g.map f, k.map f, t.map f, by simp only [List.map_append], ?_, ?_,
      hforth a ?_ hlead, hforth g ?_ hgap, hforth t ?_ htrail⟩
    · exact spaced_map ws b hbody (fun c hc => hspace c (by simp [hc])) (fun c hc => hupper c (by simp [hc]))
    · rcases hclose with rfl | rfl
      · exact Or.inl rfl
      · right
        rw [List.map_singleton, (hmark mark (by simp)).mpr rfl]
    · exact fun c hc => by simp [hc]
    · exact fun c hc => by simp [hc]
    · exact fun c hc => by simp [hc]

end Map

theorem spells_symbols (space : α → Bool) (upper : α → β) (mark : α) (ws : List (List β)) (s : List α)
    (h : Spells space upper mark ws s) : ∀ c ∈ s, space c = true ∨ c = mark ∨ ∃ w ∈ ws, upper c ∈ w := by
  have hbody (ws : List (List β)) (body : List α) (h : Spaced space upper ws body) :
      ∀ c ∈ body, space c = true ∨ ∃ w ∈ ws, upper c ∈ w := by
    induction h with
    | last w =>
      intro c hc
      exact Or.inr ⟨_, List.mem_cons_self, List.mem_map_of_mem hc⟩
    | more w gap rest ws _ hgap _ ih =>
      intro c hc
      rcases List.mem_append.mp hc with hc | hc
      · exact Or.inr ⟨_, List.mem_cons_self, List.mem_map_of_mem hc⟩
      rcases List.mem_append.mp hc with hc | hc
      · exact Or.inl (hgap c hc)
      · refine (ih c hc).imp_right ?_
        rintro ⟨v, hv, hcv⟩
        exact ⟨v, List.mem_cons_of_mem _ hv, hcv⟩
  obtain ⟨lead, body, gap, close, trail, rfl, hspaced, hclose, hlead, hgap, htrail⟩ := h
  intro c hc
  simp only [List.mem_append] at hc
  rcases hc with hc | hc | hc | hc | hc
  · exact Or.inl (hlead c hc)
  · exact (hbody ws body hspaced c hc).imp_right Or.inr
  · exact Or.inl (hgap c hc)
  · rcases hclose with rfl | rfl
    · cases hc
    · exact Or.inr (Or.inl (List.mem_singleton.mp hc))
  · exact Or.inl (htrail c hc)

theorem intercalate_words [DecidableEq α] (sep : α) (ws vs : List (List α)) (hws : ws ≠ []) (hvs : vs ≠ [])
    (hws' : ∀ w ∈ ws, sep ∉ w) (hvs' : ∀ w ∈ vs, sep ∉ w)
    (h : [sep].intercalate ws = [sep].intercalate vs) : ws = vs := by
  rw [← List.splitOn_intercalate sep hws' hws, h, List.splitOn_intercalate sep hvs' hvs]

end Faultline
