import Faultline.ReviewDiff

/-! What the review of two rules tells its reader. A rule is compared as if the unused fields of its
fault that are null were absent; every other difference has a row. -/
namespace Faultline.Review
open Script

variable {ν : Type}

/-- A rule as the reviewer holds it: a tree of JSON whose fault has an action. -/
structure RuleValue (ν : Type) where
  value : Value ν
  distinct : value.Distinct
  action : ∃ s, value.get [lit "Fault", lit "Action"] = some (.str s)

def unused (e : Text × Value ν) : Bool := e.2.isNull && unusedFields.contains e.1

def dropUnused : Value ν → Value ν
  | .obj fields => .obj (fields.filter (fun e => !unused e))
  | v => v

def withoutUnused : Value ν → Value ν
  | .obj fields => .obj (fields.map (fun e => (e.1, if e.1 = lit "Fault" then dropUnused e.2 else e.2)))
  | v => v

/-! The entries of a rule are the leaves of the rule without its unused fields. -/

theorem entryAt_of_not_leftOut (path : Path) (v : Value ν) (h : leftOut path = false) :
    entryAt path v = v.leaf := by
  rw [entryAt, h, Bool.and_false]
  rfl

theorem leftOut_eq_true (path : Path) :
    leftOut path = true ↔ ∃ key, path = [lit "Fault", key] ∧ unusedFields.contains key = true := by
  constructor
  · intro h
    match path, h with
    | [a, b], h =>
      rw [leftOut, Bool.and_eq_true, decide_eq_true_eq] at h
      exact ⟨b, by rw [h.1], h.2⟩
  · rintro ⟨key, rfl, h⟩
    rw [leftOut, Bool.and_eq_true]
    exact ⟨decide_eq_true rfl, h⟩

theorem lookup_map_value (fields : List (Text × Value ν)) (f : Text → Value ν → Value ν) (key : Text) :
    (fields.map (fun e => (e.1, f e.1 e.2))).lookup key = (fields.lookup key).map (f key) := by
  induction fields with
  | nil => rfl
  | cons e fields ih =>
    rw [List.map_cons, List.lookup_cons, List.lookup_cons]
    by_cases hkey : key = e.1
    · rw [hkey, beq_self_eq_true]
      rfl
    · rw [beq_false_of_ne hkey]
      exact ih

theorem lookup_filter (fields : List (Text × Value ν)) (hnodup : (fields.map Prod.fst).Nodup)
    (P : Text × Value ν → Bool) (key : Text) :
    (fields.filter P).lookup key = (fields.lookup key).filter (fun v => P (key, v)) := by
  have hnodup' : ((fields.filter P).map Prod.fst).Nodup := hnodup.sublist (List.filter_sublist.map _)
  cases hlookup : fields.lookup key with
  | none =>
    apply lookup_eq_none
    intro hmem
    obtain ⟨e, he, rfl⟩ := List.mem_map.mp hmem
    rw [lookup_of_mem fields hnodup e (List.mem_filter.mp he).1] at hlookup
    cases hlookup
  | some v =>
    have hmem := lookup_mem fields key v hlookup
    by_cases hP : P (key, v) = true
    · rw [Option.filter_some, if_pos hP]
      exact lookup_of_mem _ hnodup' (key, v) (List.mem_filter.mpr ⟨hmem, hP⟩)
    · rw [Option.filter_some, if_neg hP]
      apply lookup_eq_none
      intro hkey
      obtain ⟨e, he, rfl⟩ := List.mem_map.mp hkey
      obtain ⟨hmem', hPe⟩ := List.mem_filter.mp he
      rw [lookup_of_mem fields hnodup e hmem', Option.some.injEq] at hlookup
      exact hP (by rw [← hlookup]; exact hPe)

theorem shown_fault_field (fault : List (Text × Value ν)) (hnodup : (fault.map Prod.fst).Nodup)
    (key : Text) (p : Path) :
    (fault.lookup key).bind (fun w => shown [lit "Fault", key] w p) =
      leafAt ((fault.filter (fun e => !unused e)).lookup key) p := by
  rw [lookup_filter fault hnodup]
  cases hlookup : fault.lookup key with
  | none => rfl
  | some v =>
    rw [Option.bind_some, Option.filter_some]
    by_cases hunused : unused (key, v) = true
    · -- a null that is left out has no entry, and nothing is below it
      rw [hunused]
      rw [unused, Bool.and_eq_true] at hunused
      have hnull : v = .null := by
        cases v with
        | null => rfl
        | _ => exact absurd hunused.1 (by simp [Value.isNull])
      subst hnull
      cases p with
      | nil =>
        have hout : leftOut [lit "Fault", key] = true := (leftOut_eq_true _).mpr ⟨key, rfl, hunused.2⟩
        rw [shown, Value.get, Option.bind_some, List.append_nil, entryAt, hout]
        rfl
      | cons k p => rfl
    · rw [Bool.eq_false_iff.mpr hunused]
      change (v.get p).bind _ = (v.get p).bind _
      cases p with
      | nil =>
        rw [Value.get, Option.bind_some, Option.bind_some, List.append_nil, entryAt]
        have hentry : (v.isNull && leftOut [lit "Fault", key]) = false := by
          rw [Bool.and_eq_false_iff]
          by_cases hnull : v.isNull = true
          · right
            rw [Bool.eq_false_iff]
            intro hout
            obtain ⟨k, hk, hcontains⟩ := (leftOut_eq_true _).mp hout
            have hkey : key = k := List.head_eq_of_cons_eq (List.tail_eq_of_cons_eq hk)
            rw [unused, hnull, hkey, hcontains] at hunused
            exact hunused rfl
          · exact Or.inl (Bool.eq_false_iff.mpr hnull)
        rw [hentry]
        rfl
      | cons k p =>
        congr 1
        funext w
        exact entryAt_of_not_leftOut _ w rfl

theorem branch_of_lookup (fields : List (Text × Value ν)) (key : Text) (v : Value ν)
    (h : fields.lookup key = some v) : (Value.obj fields).branch = true := by
  cases fields with
  | nil => cases h
  | cons e fields => rfl

theorem shown_branch (path : Path) (v : Value ν) (h : v.branch = true) : shown path v [] = none := by
  obtain ⟨e, fields, rfl⟩ := branch_obj v h
  rfl

theorem leafAt_branch (v : Value ν) (h : v.branch = true) : leafAt (some v) [] = none := by
  change v.leaf = none
  rw [Value.leaf, if_pos h]

theorem dropUnused_branch (fault : List (Text × Value ν)) (s : Text)
    (h : fault.lookup (lit "Action") = some (.str s)) : (dropUnused (.obj fault)).branch = true := by
  have hmem : (lit "Action", Value.str s) ∈ fault.filter (fun e => !unused e) :=
    List.mem_filter.mpr ⟨lookup_mem fault _ _ h, rfl⟩
  obtain ⟨e, es, hfilter⟩ := List.exists_cons_of_ne_nil (List.ne_nil_of_mem hmem)
  rw [dropUnused, hfilter]
  rfl

theorem RuleValue.cases (r : RuleValue ν) : ∃ fields fault s, r.value = .obj fields ∧
    fields.lookup (lit "Fault") = some (.obj fault) ∧ fault.lookup (lit "Action") = some (.str s) ∧
    (fields.map Prod.fst).Nodup ∧ (fault.map Prod.fst).Nodup := by
  obtain ⟨v, hv, s, hs⟩ := r
  cases hv with
  | obj fields hnodup hfields =>
    rw [Value.get, Option.bind_eq_some_iff] at hs
    obtain ⟨w, hw, hs⟩ := hs
    have hdistinct := hfields _ (lookup_mem fields _ w hw)
    cases hdistinct with
    | obj fault hnodup' _ =>
      rw [Value.get, Option.bind_eq_some_iff] at hs
      obtain ⟨u, hu, hs⟩ := hs
      cases hs
      exact ⟨fields, fault, s, rfl, hw, hu, hnodup, hnodup'⟩
    | _ => cases hs
  | _ => cases hs

theorem shown_rule (r : RuleValue ν) (q : Path) :
    shown [] r.value q = leafAt (some (withoutUnused r.value)) q := by
  obtain ⟨fields, fault, s, hvalue, hfault, haction, hnodup, hnodup'⟩ := r.cases
  rw [hvalue]
  cases q with
  | nil =>
    have hfault' : (withoutUnused (.obj fields)).branch = true := by
      apply branch_of_lookup _ (lit "Fault") (dropUnused (.obj fault))
      rw [lookup_map_value fields (fun k v => if k = lit "Fault" then dropUnused v else v), hfault]
      rfl
    rw [shown_branch _ _ (branch_of_lookup fields _ _ hfault), leafAt_branch _ hfault']
  | cons key q =>
    have hlookup : leafAt (some (withoutUnused (.obj fields))) (key :: q) =
        leafAt ((fields.lookup key).map (fun v => if key = lit "Fault" then dropUnused v else v)) q := by
      rw [withoutUnused, leafAt_obj,
        lookup_map_value fields (fun k v => if k = lit "Fault" then dropUnused v else v)]
    rw [hlookup, shown_cons, List.nil_append]
    by_cases hkey : key = lit "Fault"
    · subst hkey
      simp only [hfault, Option.bind_some, Option.map_some, if_true]
      cases q with
      | nil =>
        rw [leafAt_branch _ (dropUnused_branch fault s haction),
          shown_branch _ _ (branch_of_lookup fault _ _ haction)]
      | cons k q =>
        rw [dropUnused, leafAt_obj, ← shown_fault_field fault hnodup', shown_cons]
        rfl
    · simp only [if_neg hkey, Option.map_id']
      -- only a path through the fault can be left out
      have hin (p : Path) : leftOut (key :: p) = false := by
        rw [Bool.eq_false_iff]
        intro hout
        obtain ⟨k, hk, -⟩ := (leftOut_eq_true _).mp hout
        exact hkey (List.head_eq_of_cons_eq hk)
      cases hv : fields.lookup key with
      | none => rfl
      | some v =>
        change (v.get q).bind _ = (v.get q).bind _
        congr 1
        funext w
        exact entryAt_of_not_leftOut _ w (hin q)

/-! The texts of paths. -/

theorem pathText_cons (a b : Text) (q : Path) :
    pathText (a :: b :: q) = quote a ++ (lit " → " ++ pathText (b :: q)) := by
  rw [pathText, List.map_cons, List.map_cons, List.intercalate_cons_cons, ← List.map_cons, List.append_assoc]
  rfl

theorem pathText_ne_nil (a : Text) (q : Path) : pathText (a :: q) ≠ [] := by
  cases q with
  | nil => simp [pathText, quote]
  | cons b q =>
    rw [pathText_cons]
    simp [quote]

theorem pathText_injective : Function.Injective pathText := by
  intro p q h
  have hsingle (a : Text) : pathText [a] = quote a ++ [] := by simp [pathText]
  induction p generalizing q with
  | nil =>
    cases q with
    | nil => rfl
    | cons b q => exact absurd h.symm (pathText_ne_nil b q)
  | cons a p ih =>
    cases q with
    | nil => exact absurd h (pathText_ne_nil a p)
    | cons b q =>
      cases p with
      | nil =>
        cases q with
        | nil =>
          rw [hsingle, hsingle] at h
          rw [(quote_code a b [] [] h).1]
        | cons d q =>
          rw [hsingle, pathText_cons] at h
          exact absurd (quote_code _ _ _ _ h).2 (by simp [lit])
      | cons e p =>
        cases q with
        | nil =>
          rw [hsingle, pathText_cons] at h
          exact absurd (quote_code _ _ _ _ h).2 (by simp [lit])
        | cons d q =>
          rw [pathText_cons, pathText_cons] at h
          obtain ⟨hab, hrest⟩ := quote_code _ _ _ _ h
          rw [hab, ih (List.append_cancel_left hrest)]

/-! Rules to look at. -/

def decimal (n : ℕ) : Text := (Nat.toDigits 10 n).map (fun c => c.toNat.toUInt16)

theorem decimal_unit (n : ℕ) (c : Char) (hc : c ∈ Nat.toDigits 10 n) :
    48 ≤ c.toNat ∧ c.toNat < 58 ∧ c.toNat.toUInt16.toNat = c.toNat := by
  have hdigit := Nat.isDigit_of_mem_toDigits (by decide) (by decide) hc
  have hrange : 48 ≤ c.toNat ∧ c.toNat ≤ 57 := Char.isDigit_iff_toNat.mp hdigit
  rw [Nat.toUInt16_eq, UInt16.toNat_ofNat']
  omega

theorem decimal_text : NumberText decimal := by
  refine ⟨?_, ?_⟩
  · intro n
    refine ⟨by simp [decimal, Nat.toDigits_ne_nil], ?_⟩
    intro u hu
    obtain ⟨c, hc, rfl⟩ := List.mem_map.mp hu
    obtain ⟨hlow, hhigh, hnat⟩ := decimal_unit n c hc
    rw [numberUnit, hnat]
    simp [hlow, hhigh]
  · intro n m h
    have hback (k : ℕ) : (decimal k).map (fun u => Char.ofNat u.toNat) = Nat.toDigits 10 k := by
      rw [decimal, List.map_map]
      conv_rhs => rw [← List.map_id (Nat.toDigits 10 k)]
      apply List.map_congr_left
      intro c hc
      rw [Function.comp_apply, (decimal_unit k c hc).2.2, Char.ofNat_toNat, id]
    have hdigits : Nat.toDigits 10 n = Nat.toDigits 10 m := by
      rw [← hback n, h, hback m]
    calc
      n = Nat.ofDigitChars 10 (Nat.toDigits 10 n) 0 := Nat.ofDigitChars_ten_toDigits.symm
      _ = Nat.ofDigitChars 10 (Nat.toDigits 10 m) 0 := by rw [hdigits]
      _ = m := Nat.ofDigitChars_ten_toDigits

def delayRule (fields : List (Text × Value ℕ)) : Value ℕ :=
  .obj [(lit "ID", .str (lit "slow")), (lit "Fault", .obj ((lit "Action", .str (lit "delay")) :: fields))]

theorem delayRule_distinct (fields : List (Text × Value ℕ))
    (hnodup : (lit "Action" :: fields.map Prod.fst).Nodup) (h : ∀ e ∈ fields, e.2.Distinct) :
    (delayRule fields).Distinct := by
  refine .obj _ (show [lit "ID", lit "Fault"].Nodup by decide) ?_
  intro e he
  rcases List.mem_cons.mp he with rfl | he
  · exact .str _
  · rw [List.mem_singleton.mp he]
    refine .obj _ hnodup ?_
    intro d hd
    rcases List.mem_cons.mp hd with rfl | hd
    · exact .str _
    · exact h d hd

/-! Nothing is hidden. -/

/-- What the rows of two rules tell: rows that are all unmarked mean equal rules, a difference at a
path has a marked row at the path or below it, and each path with an entry has a row of its own. -/
structure Tells (before after : Value ν) (rows : List Row) : Prop where
  same : (∀ row ∈ rows, row.kind = .same) → (withoutUnused before).Same (withoutUnused after)
  differs : ∀ p, ¬SameAt ((withoutUnused before).get p) ((withoutUnused after).get p) →
    ∃ q, ∃ row ∈ rows, row.path = pathText (p ++ q) ∧ row.kind ≠ .same
  apart : ∃ paths : List Path, paths.Nodup ∧ rows.map Row.path = paths.map pathText ∧
    (∀ p q, pathText p = pathText q → p = q) ∧
    ∀ q, q ∈ paths ↔ (leafAt (some (withoutUnused before)) q).isSome = true ∨
      (leafAt (some (withoutUnused after)) q).isSome = true

theorem leafAt_get (v : Value ν) (p q : Path) : leafAt (v.get p) q = leafAt (some v) (p ++ q) := by
  rw [leafAt, leafAt, Option.bind_some, get_append]

theorem review_tells (number : ν → Text) (hn : NumberText number) (before after : RuleValue ν) :
    ∃ rows, ruleDiffRows number before.value after.value = some rows ∧
      Tells before.value after.value rows := by
  obtain ⟨paths, hnodup, hmem, hrows⟩ :=
    ruleDiffRows_eq number before.value after.value before.distinct after.distinct
  have hdiffers : ∀ p, ¬SameAt ((withoutUnused before.value).get p) ((withoutUnused after.value).get p) →
      ∃ q, ∃ row ∈ paths.map (rowAt number before.value after.value),
        row.path = pathText (p ++ q) ∧ row.kind ≠ .same := by
    intro p hp
    -- some leaf below the path is not the same on both sides
    have hleaf : ∃ q, leafAt ((withoutUnused before.value).get p) q ≠
        leafAt ((withoutUnused after.value).get p) q := by
      by_contra hnot
      rw [not_exists] at hnot
      exact hp (sameAt_of_leaves _ _ (fun q => not_not.mp (hnot q)))
    obtain ⟨q, hq⟩ := hleaf
    rw [leafAt_get, leafAt_get, ← shown_rule, ← shown_rule] at hq
    have hsome : (shown [] before.value (p ++ q)).isSome = true ∨
        (shown [] after.value (p ++ q)).isSome = true := by
      by_contra hnot
      rw [not_or, Option.not_isSome_iff_eq_none, Option.not_isSome_iff_eq_none] at hnot
      exact hq (hnot.1.trans hnot.2.symm)
    refine ⟨q, _, List.mem_map_of_mem ((hmem _).mpr hsome), rfl, ?_⟩
    rw [Ne, rowAt_marked number hn _ _ _ hsome]
    exact hq
  refine ⟨_, hrows, ?_, hdiffers, paths, hnodup, ?_, fun p q h => pathText_injective h, ?_⟩
  · intro hsame
    by_contra hnot
    have hroot : ¬SameAt ((withoutUnused before.value).get []) ((withoutUnused after.value).get []) := by
      rintro (⟨h, -⟩ | ⟨a, b, ha, hb, h⟩)
      · cases h
      · cases ha
        cases hb
        exact hnot h
    obtain ⟨q, row, hrow, -, hkind⟩ := hdiffers [] hroot
    exact hkind (hsame row hrow)
  · rw [List.map_map]
    rfl
  · intro q
    rw [hmem, shown_rule, shown_rule]

theorem review_tells_status : ∃ before after : RuleValue ℕ,
    before.value = delayRule [(lit "Status", .null)] ∧ after.value = delayRule [(lit "Status", .num 503)] ∧
    ∃ rows, ruleDiffRows decimal before.value after.value = some rows ∧
      Tells before.value after.value rows := by
  have hbefore : (delayRule [(lit "Status", .null)]).Distinct := by
    refine delayRule_distinct _ (by decide) ?_
    intro e he
    rw [List.mem_singleton.mp he]
    exact .null
  have hafter : (delayRule [(lit "Status", .num 503)]).Distinct := by
    refine delayRule_distinct _ (by decide) ?_
    intro e he
    rw [List.mem_singleton.mp he]
    exact .num 503
  exact ⟨⟨_, hbefore, _, rfl⟩, ⟨_, hafter, _, rfl⟩, rfl, rfl, review_tells decimal decimal_text _ _⟩

end Faultline.Review
