import Faultline.ReviewRules

/-! The optional fields of a fault in the review. A server prints each of them, as null where it is not
set; an editor leaves it away. -/
namespace Faultline.Review
open Script

variable {ν : Type}

/-- The pointer fields of `config.Fault`. -/
inductive OptionalField where
  | duration
  | maxDuration
  | status
  | body
  | bytes
  | bytesPerSecond
  | afterBytes
  | afterDuration
  deriving DecidableEq

def OptionalField.key : OptionalField → Text
  | .duration => lit "Duration"
  | .maxDuration => lit "MaxDuration"
  | .status => lit "Status"
  | .body => lit "Body"
  | .bytes => lit "Bytes"
  | .bytesPerSecond => lit "BytesPerSecond"
  | .afterBytes => lit "AfterBytes"
  | .afterDuration => lit "AfterDuration"

def optionalFields : List OptionalField :=
  [.duration, .maxDuration, .status, .body, .bytes, .bytesPerSecond, .afterBytes, .afterDuration]

theorem mem_optionalFields (f : OptionalField) : f ∈ optionalFields := by
  cases f <;> decide

theorem OptionalField.key_injective (f g : OptionalField) (h : f.key = g.key) : f = g := by
  revert h
  cases f <;> cases g <;> decide

/-- An absent field is set to null, a null one is removed, any other stays. -/
def toggleField (key : Text) (fault : List (Text × Value ν)) : List (Text × Value ν) :=
  match fault.lookup key with
  | none => fault ++ [(key, .null)]
  | some v => if v.isNull then fault.filter (fun e => e.1 ≠ key) else fault

def toggleFault (T : OptionalField → Bool) (fault : List (Text × Value ν)) : List (Text × Value ν) :=
  (optionalFields.filter T).foldl (fun fault f => toggleField f.key fault) fault

def toggleValue (T : OptionalField → Bool) (key : Text) : Value ν → Value ν
  | .obj fault => if key = lit "Fault" then .obj (toggleFault T fault) else .obj fault
  | v => v

/-- The same rule with the fields in `T` of its fault toggled. -/
def toggle (T : OptionalField → Bool) : Value ν → Value ν
  | .obj fields => .obj (fields.map (fun e => (e.1, toggleValue T e.1 e.2)))
  | v => v

def flip : Option (Value ν) → Option (Value ν)
  | none => some .null
  | some v => if v.isNull then none else some v

theorem lookup_append_single (fault : List (Text × Value ν)) (key k : Text) (v : Value ν)
    (h : fault.lookup key = none) :
    (fault ++ [(key, v)]).lookup k = if k = key then some v else fault.lookup k := by
  rw [List.lookup_append]
  by_cases hk : k = key
  · rw [if_pos hk, hk, h]
    simp
  · rw [if_neg hk, List.lookup_cons, beq_false_of_ne hk]
    simp

theorem lookup_remove (fault : List (Text × Value ν)) (h : (fault.map Prod.fst).Nodup) (key k : Text) :
    (fault.filter (fun e => e.1 ≠ key)).lookup k = if k = key then none else fault.lookup k := by
  rw [lookup_filter fault h]
  by_cases hk : k = key
  · rw [if_pos hk]
    simp [hk]
  · rw [if_neg hk]
    cases fault.lookup k with
    | none => rfl
    | some v => simp [hk]

def Fielded (fault : List (Text × Value ν)) : Prop :=
  (fault.map Prod.fst).Nodup ∧ ∀ e ∈ fault, e.2.Distinct

theorem toggleField_spec (key : Text) (fault : List (Text × Value ν)) (h : Fielded fault) :
    Fielded (toggleField key fault) ∧ ∀ k, (toggleField key fault).lookup k =
      if k = key then flip (fault.lookup k) else fault.lookup k := by
  cases hlookup : fault.lookup key with
  | none =>
    have heq : toggleField key fault = fault ++ [(key, .null)] := by rw [toggleField, hlookup]
    have hkey : key ∉ fault.map Prod.fst := by
      intro hmem
      obtain ⟨e, he, rfl⟩ := List.mem_map.mp hmem
      rw [lookup_of_mem fault h.1 e he] at hlookup
      cases hlookup
    rw [heq]
    refine ⟨⟨?_, ?_⟩, ?_⟩
    · rw [List.map_append, List.nodup_append]
      refine ⟨h.1, List.nodup_singleton key, ?_⟩
      intro a ha b hb hab
      rw [hab, List.mem_singleton.mp hb] at ha
      exact hkey ha
    · intro e he
      rcases List.mem_append.mp he with he | he
      · exact h.2 e he
      · rw [List.mem_singleton.mp he]
        exact .null
    · intro k
      rw [lookup_append_single fault key k .null hlookup]
      by_cases hk : k = key
      · rw [if_pos hk, if_pos hk, hk, hlookup]
        rfl
      · rw [if_neg hk, if_neg hk]
  | some v =>
    by_cases hnull : v.isNull = true
    · have heq : toggleField key fault = fault.filter (fun e => e.1 ≠ key) := by
        simp only [toggleField, hlookup, if_pos hnull]
      rw [heq]
      refine ⟨⟨h.1.sublist (List.filter_sublist.map _), ?_⟩, ?_⟩
      · intro e he
        exact h.2 e (List.mem_filter.mp he).1
      · intro k
        rw [lookup_remove fault h.1]
        by_cases hk : k = key
        · rw [if_pos hk, if_pos hk, hk, hlookup, flip, if_pos hnull]
        · rw [if_neg hk, if_neg hk]
    · have heq : toggleField key fault = fault := by
        simp only [toggleField, hlookup, if_neg hnull]
      rw [heq]
      refine ⟨h, ?_⟩
      intro k
      by_cases hk : k = key
      · rw [if_pos hk, hk, hlookup, flip, if_neg hnull]
      · rw [if_neg hk]

theorem toggleFields_spec (fs : List OptionalField) (hfs : fs.Nodup) (fault : List (Text × Value ν))
    (h : Fielded fault) :
    Fielded (fs.foldl (fun fault f => toggleField f.key fault) fault) ∧
      ∀ k, (fs.foldl (fun fault f => toggleField f.key fault) fault).lookup k =
        if k ∈ fs.map OptionalField.key then flip (fault.lookup k) else fault.lookup k := by
  induction fs generalizing fault with
  | nil => exact ⟨h, fun _ => rfl⟩
  | cons f fs ih =>
    obtain ⟨hf, hlookup⟩ := toggleField_spec f.key fault h
    rw [List.nodup_cons] at hfs
    obtain ⟨hrest, hlookups⟩ := ih hfs.2 (toggleField f.key fault) hf
    refine ⟨hrest, ?_⟩
    intro k
    rw [List.foldl_cons, hlookups, hlookup]
    by_cases hk : k = f.key
    · have hnot : k ∉ fs.map OptionalField.key := by
        intro hmem
        obtain ⟨g, hg, hkey⟩ := List.mem_map.mp hmem
        rw [OptionalField.key_injective g f (hkey.trans hk)] at hg
        exact hfs.1 hg
      rw [if_neg hnot, if_pos hk, if_pos (by rw [hk]; exact List.mem_cons_self)]
    · have hiff : k ∈ (f :: fs).map OptionalField.key ↔ k ∈ fs.map OptionalField.key := by
        rw [List.map_cons, List.mem_cons, or_iff_right hk]
      simp only [if_neg hk, hiff]

theorem toggleFault_spec (T : OptionalField → Bool) (fault : List (Text × Value ν)) (h : Fielded fault) :
    Fielded (toggleFault T fault) ∧
      (∀ f, T f = true → (toggleFault T fault).lookup f.key = flip (fault.lookup f.key)) ∧
      ∀ k, (∀ f, T f = true → f.key ≠ k) → (toggleFault T fault).lookup k = fault.lookup k := by
  obtain ⟨hfielded, hlookup⟩ := toggleFields_spec (optionalFields.filter T)
    ((show optionalFields.Nodup by decide).filter T) fault h
  have hiff (k : Text) : k ∈ (optionalFields.filter T).map OptionalField.key ↔
      ∃ f, T f = true ∧ f.key = k := by
    simp only [List.mem_map, List.mem_filter, mem_optionalFields, true_and]
  refine ⟨hfielded, ?_, ?_⟩
  · intro f hf
    rw [toggleFault, hlookup, if_pos ((hiff _).mpr ⟨f, hf, rfl⟩)]
  · intro k hk
    rw [toggleFault, hlookup, if_neg]
    rw [hiff]
    rintro ⟨f, hf, hkey⟩
    exact hk f hf hkey

theorem lookup_action (T : OptionalField → Bool) (fault : List (Text × Value ν)) (h : Fielded fault) :
    (toggleFault T fault).lookup (lit "Action") = fault.lookup (lit "Action") := by
  apply (toggleFault_spec T fault h).2.2
  intro f _
  cases f <;> decide

theorem toggleValue_distinct (T : OptionalField → Bool) (key : Text) (v : Value ν) (h : v.Distinct) :
    (toggleValue T key v).Distinct := by
  cases h with
  | obj fault hnodup hfields =>
    rw [toggleValue]
    split
    · have hfielded := (toggleFault_spec T fault ⟨hnodup, hfields⟩).1
      exact .obj _ hfielded.1 hfielded.2
    · exact .obj fault hnodup hfields
  | null => exact .null
  | bool b => exact .bool b
  | num n => exact .num n
  | str s => exact .str s
  | arr items hitems => exact .arr items hitems

theorem toggle_distinct (T : OptionalField → Bool) (v : Value ν) (h : v.Distinct) : (toggle T v).Distinct := by
  cases h with
  | obj fields hnodup hfields =>
    refine .obj _ ?_ ?_
    · rw [List.map_map]
      exact hnodup
    · intro e he
      obtain ⟨d, hd, rfl⟩ := List.mem_map.mp he
      exact toggleValue_distinct T d.1 d.2 (hfields d hd)
  | null => exact .null
  | bool b => exact .bool b
  | num n => exact .num n
  | str s => exact .str s
  | arr items hitems => exact .arr items hitems

theorem toggle_fault (T : OptionalField → Bool) (fields fault : List (Text × Value ν))
    (h : fields.lookup (lit "Fault") = some (.obj fault)) :
    (fields.map (fun e => (e.1, toggleValue T e.1 e.2))).lookup (lit "Fault") =
      some (.obj (toggleFault T fault)) := by
  rw [lookup_map_value fields (toggleValue T), h, Option.map_some, toggleValue, if_pos rfl]

theorem RuleValue.fielded (r : RuleValue ν) (fields fault : List (Text × Value ν)) (hr : r.value = .obj fields)
    (h : fields.lookup (lit "Fault") = some (.obj fault)) : Fielded fault := by
  have hdistinct := r.distinct
  rw [hr] at hdistinct
  cases hdistinct with
  | obj _ hnodup hfields =>
    cases hfields _ (lookup_mem fields _ _ h) with
    | obj _ hnodup' hfault => exact ⟨hnodup', hfault⟩

/-- The rule with the fields in `T` of its fault toggled is a rule. -/
def RuleValue.toggle (r : RuleValue ν) (T : OptionalField → Bool) : RuleValue ν where
  value := Review.toggle T r.value
  distinct := toggle_distinct T r.value r.distinct
  action := by
    obtain ⟨fields, fault, s, hvalue, hfault, haction, -, -⟩ := r.cases
    refine ⟨s, ?_⟩
    rw [hvalue, Review.toggle, Value.get, toggle_fault T fields fault hfault, Option.bind_some, Value.get,
      lookup_action T fault (r.fielded fields fault hvalue hfault), haction]
    rfl

/-! What toggling changes in the review. -/

theorem shown_null (key : Text) (p : Path) (h : unusedFields.contains key = true) :
    shown [lit "Fault", key] (.null : Value ν) p = none := by
  cases p with
  | nil =>
    have hout : leftOut [lit "Fault", key] = true := (leftOut_eq_true _).mpr ⟨key, rfl, h⟩
    rw [shown, Value.get, Option.bind_some, List.append_nil, entryAt, hout]
    rfl
  | cons k p => rfl

theorem isNull_iff (v : Value ν) : v.isNull = true ↔ v = .null := by
  cases v with
  | null => exact ⟨fun _ => rfl, fun _ => rfl⟩
  | _ => exact ⟨fun h => (by cases h), fun h => (by cases h)⟩

theorem flip_bind (o : Option (Value ν)) (S : Value ν → Option (Value ν)) (h : S .null = none) :
    (flip o).bind S = o.bind S := by
  cases o with
  | none => exact h
  | some v =>
    rw [flip]
    split
    · next hnull =>
      rw [(isNull_iff v).mp hnull]
      exact h.symm
    · rfl

def Unset (r : Value ν) (f : OptionalField) : Prop :=
  ∀ v, r.get [lit "Fault", f.key] = some v → v.isNull = true

theorem shown_toggle (r : RuleValue ν) (T : OptionalField → Bool) :
    (∀ q, shown [] r.value q = shown [] (r.toggle T).value q) ↔
      ∀ f, T f = true → Unset r.value f → unusedFields.contains f.key = true := by
  obtain ⟨fields, fault, s, hvalue, hfault, haction, -, -⟩ := r.cases
  have hfielded := r.fielded fields fault hvalue hfault
  obtain ⟨-, htoggled, hother⟩ := toggleFault_spec T fault hfielded
  have hvalue' : (r.toggle T).value = .obj (fields.map (fun e => (e.1, toggleValue T e.1 e.2))) := by
    change Review.toggle T r.value = _
    rw [hvalue, Review.toggle]
  -- an entry below the fault is an entry of one of its fields
  have hbelow (k : Text) (p : Path) : shown [] r.value (lit "Fault" :: k :: p) =
      (fault.lookup k).bind (fun w => shown [lit "Fault", k] w p) := by
    rw [hvalue, shown_cons, hfault, Option.bind_some, shown_cons]
    rfl
  have hbelow' (k : Text) (p : Path) : shown [] (r.toggle T).value (lit "Fault" :: k :: p) =
      ((toggleFault T fault).lookup k).bind (fun w => shown [lit "Fault", k] w p) := by
    rw [hvalue', shown_cons, toggle_fault T fields fault hfault, Option.bind_some, shown_cons]
    rfl
  constructor
  · intro heq f hT hunset
    by_contra hused
    have hkey := heq [lit "Fault", f.key]
    rw [hbelow, hbelow', htoggled f hT] at hkey
    have hout : leftOut [lit "Fault", f.key] = false := by
      rw [Bool.eq_false_iff]
      intro hout
      obtain ⟨k, hk, hcontains⟩ := (leftOut_eq_true _).mp hout
      rw [List.head_eq_of_cons_eq (List.tail_eq_of_cons_eq hk)] at hused
      exact hused hcontains
    have hnull : shown [lit "Fault", f.key] (.null : Value ν) [] = some .null := by
      rw [shown, Value.get, Option.bind_some, List.append_nil, entryAt_of_not_leftOut _ _ hout]
      rfl
    cases hlookup : fault.lookup f.key with
    | none =>
      rw [hlookup, flip, Option.bind_some, hnull] at hkey
      cases hkey
    | some v =>
      have hv : v.isNull = true := by
        apply hunset v
        rw [hvalue, Value.get, hfault, Option.bind_some, Value.get, hlookup]
        rfl
      rw [hlookup, flip, if_pos hv, (isNull_iff v).mp hv, Option.bind_some, hnull] at hkey
      cases hkey
  · intro hT q
    cases q with
    | nil =>
      have hfault' := toggle_fault T fields fault hfault
      rw [hvalue, hvalue', shown_branch _ _ (branch_of_lookup fields _ _ hfault),
        shown_branch _ _ (branch_of_lookup _ _ _ hfault')]
    | cons key q =>
      by_cases hkey : key = lit "Fault"
      · subst hkey
        cases q with
        | nil =>
          have haction' := lookup_action T fault hfielded
          rw [haction] at haction'
          rw [hvalue, hvalue', shown_cons, shown_cons, hfault, toggle_fault T fields fault hfault,
            Option.bind_some, Option.bind_some, shown_branch _ _ (branch_of_lookup fault _ _ haction),
            shown_branch _ _ (branch_of_lookup _ _ _ haction')]
        | cons k p =>
          rw [hbelow, hbelow']
          by_cases htoggle : ∃ f, T f = true ∧ f.key = k
          · obtain ⟨f, hf, rfl⟩ := htoggle
            rw [htoggled f hf]
            by_cases hunset : Unset r.value f
            · rw [flip_bind _ _ (shown_null f.key p (hT f hf hunset))]
            · -- a field with a value stays as it is
              unfold Unset at hunset
              rw [not_forall] at hunset
              obtain ⟨v, hv⟩ := hunset
              rw [Classical.not_imp, hvalue, Value.get, hfault, Option.bind_some, Value.get,
                Option.bind_eq_some_iff] at hv
              obtain ⟨⟨w, hw, hwv⟩, hnull⟩ := hv
              cases hwv
              rw [hw, flip, if_neg hnull]
          · rw [hother k]
            intro f hf hk
            exact htoggle ⟨f, hf, hk⟩
      · -- nothing else is toggled
        have hsame : @toggleValue ν T key = id := by
          funext v
          cases v with
          | obj fault => exact if_neg hkey
          | _ => rfl
        rw [hvalue, hvalue', shown_cons, shown_cons, lookup_map_value fields (toggleValue T)]
        rw [hsame, Option.map_id, id]

/-- No toggled field is one that `diffFields` does not list. -/
def Listed (r : Value ν) (T : OptionalField → Bool) : Prop :=
  ∀ f, f = .afterBytes ∨ f = .afterDuration → T f = true → ¬Unset r f

theorem shown_toggle_listed (r : RuleValue ν) (T : OptionalField → Bool) :
    (∀ q, shown [] r.value q = shown [] (r.toggle T).value q) ↔ Listed r.value T := by
  rw [shown_toggle]
  constructor
  · intro h f hf hT hunset
    have hlisted := h f hT hunset
    rcases hf with rfl | rfl
    · exact absurd hlisted (by decide)
    · exact absurd hlisted (by decide)
  · intro h f hT hunset
    cases f with
    | afterBytes => exact absurd hunset (h _ (Or.inl rfl) hT)
    | afterDuration => exact absurd hunset (h _ (Or.inr rfl) hT)
    | _ => decide

/-- The review of a rule and the same rule with optional fields toggled, either way round, marks a row
if one of them is an unset field that `diffFields` does not list, and only then. -/
theorem toggled_rows (number : ν → Text) (hn : NumberText number) (r : RuleValue ν) (T : OptionalField → Bool) :
    (∃ rows, ruleDiffRows number r.value (r.toggle T).value = some rows ∧
      ((∀ row ∈ rows, row.kind = .same) ↔ Listed r.value T)) ∧
    (∃ rows, ruleDiffRows number (r.toggle T).value r.value = some rows ∧
      ((∀ row ∈ rows, row.kind = .same) ↔ Listed r.value T)) := by
  have hdistinct := (r.toggle T).distinct
  refine ⟨?_, ?_⟩
  · obtain ⟨rows, hrows, hsame⟩ := all_same_iff number hn r.value (r.toggle T).value r.distinct hdistinct
    exact ⟨rows, hrows, hsame.trans (shown_toggle_listed r T)⟩
  · obtain ⟨rows, hrows, hsame⟩ := all_same_iff number hn (r.toggle T).value r.value hdistinct r.distinct
    refine ⟨rows, hrows, ?_⟩
    rw [hsame, ← shown_toggle_listed]
    simp only [eq_comm]

theorem toggled_rows_status : ∃ r : RuleValue ℕ, r.value = delayRule [(lit "Status", .null)] ∧
    ∃ rows, ruleDiffRows decimal r.value (r.toggle (· = .status)).value = some rows ∧
      ((∀ row ∈ rows, row.kind = .same) ↔ Listed r.value (· = .status)) := by
  have hdistinct : (delayRule [(lit "Status", .null)]).Distinct := by
    refine delayRule_distinct _ (by decide) ?_
    intro e he
    rw [List.mem_singleton.mp he]
    exact .null
  exact ⟨⟨_, hdistinct, _, rfl⟩, rfl, (toggled_rows decimal decimal_text _ _).1⟩

/-- A rule without `AfterBytes` and the same rule with a null there. -/
theorem after_bytes_marked :
    (ruleDiffRows decimal (delayRule []) (toggle (· = .afterBytes) (delayRule []))).map
      (fun rows => rows.map (fun row => (row.path, row.kind))) =
      some [(pathText [lit "Fault", lit "Action"], .same), (pathText [lit "ID"], .same),
        (pathText [lit "Fault", lit "AfterBytes"], .added)] := by
  decide +kernel

end Faultline.Review
