import Faultline.Segments

/-! `path/filepath` on Unix. A path is read as its components between slashes;
`clean` keeps a stack of them, the last one on top. -/
namespace Faultline

def isAbs (path : List Char) : Bool := path.head? = some '/'

/-- One component of `filepath.Clean`: empty and `.` components vanish, `..`
removes the component before it, and stays only where nothing can be removed
from a path without a root. -/
def cleanStep (rooted : Bool) (stack : List (List Char)) (elem : List Char) : List (List Char) :=
  if elem = [] ∨ elem = ['.'] then stack
  else if elem = ['.', '.'] then
    match stack with
    | [] => if rooted then [] else [elem]
    | top :: rest => if top = ['.', '.'] then elem :: stack else rest
  else elem :: stack

def cleanStack (rooted : Bool) (path : List Char) : List (List Char) :=
  (path.splitOn '/').foldl (cleanStep rooted) []

def clean (path : List Char) : List Char :=
  let comps := (cleanStack (isAbs path) path).reverse
  if isAbs path then '/' :: ['/'].intercalate comps
  else if comps = [] then ['.'] else ['/'].intercalate comps

def joinPath (a b : List Char) : List Char :=
  if a ≠ [] then clean (a ++ '/' :: b) else if b ≠ [] then clean b else []

def dirPath (path : List Char) : List Char :=
  match cutLast '/' path with
  | none => clean []
  | some (dir, _) => clean (dir ++ ['/'])

/-- `filepath.Abs`, given the working directory if it can be determined. -/
def absPath (wd : Option (List Char)) (path : List Char) : Option (List Char) :=
  if isAbs path then some (clean path) else wd.map (fun dir => joinPath dir path)

theorem isAbs_clean (path : List Char) (h : isAbs path = true) : isAbs (clean path) = true := by
  simp only [clean, h, if_true]
  rfl

theorem isAbs_append (a b : List Char) (h : isAbs a = true) : isAbs (a ++ b) = true := by
  cases a with
  | nil => cases h
  | cons c a => exact h

theorem isAbs_joinPath (a b : List Char) (h : isAbs a = true) : isAbs (joinPath a b) = true := by
  have hne : a ≠ [] := fun he => by
    rw [he] at h
    cases h
  rw [joinPath, if_pos hne]
  exact isAbs_clean _ (isAbs_append a _ h)

theorem isAbs_dirPath (path : List Char) (h : isAbs path = true) : isAbs (dirPath path) = true := by
  have hmem : '/' ∈ path := List.mem_of_mem_head? (of_decide_eq_true h)
  unfold dirPath
  split
  · rename_i hnone
    cases hr : (cut '/' path.reverse).2 with
    | none =>
      have hrev := cut_none '/' path.reverse hr
      have hnot := cut_fst_notMem '/' path.reverse
      rw [hrev] at hnot
      exact absurd (List.mem_reverse.mpr hmem) hnot
    | some r => simp [cutLast, hr] at hnone
  · rename_i dir rest hsome
    refine isAbs_clean _ ?_
    rw [cutLast_some '/' path dir rest hsome] at h
    cases dir with
    | nil => rfl
    | cons c dir => exact h

/-- A component that `cleanStep` pushes on a rooted path. -/
def PlainElem (elem : List Char) : Prop :=
  elem ≠ [] ∧ elem ≠ ['.'] ∧ elem ≠ ['.', '.'] ∧ '/' ∉ elem

theorem cleanStep_plain (rooted : Bool) (stack : List (List Char)) (elem : List Char)
    (h : PlainElem elem) : cleanStep rooted stack elem = elem :: stack := by
  obtain ⟨h0, h1, h2, -⟩ := h
  simp only [cleanStep, h0, h1, h2, or_self, if_false]

theorem foldl_cleanStep_plain (rooted : Bool) (elems stack : List (List Char))
    (h : ∀ e ∈ elems, PlainElem e) :
    elems.foldl (cleanStep rooted) stack = elems.reverse ++ stack := by
  induction elems generalizing stack with
  | nil => rfl
  | cons e elems ih =>
    rw [List.foldl_cons, cleanStep_plain rooted stack e (h e List.mem_cons_self),
      ih _ (fun d hd => h d (List.mem_cons_of_mem e hd))]
    simp

theorem cleanStep_stack (stack : List (List Char)) (elem : List Char) (hs : ∀ e ∈ stack, PlainElem e)
    (he : '/' ∉ elem) : ∀ e ∈ cleanStep true stack elem, PlainElem e := by
  unfold cleanStep
  by_cases h0 : elem = [] ∨ elem = ['.']
  · rwa [if_pos h0]
  rw [if_neg h0]
  by_cases h2 : elem = ['.', '.']
  · rw [if_pos h2]
    cases stack with
    | nil => simp
    | cons top rest =>
      have htop := hs top List.mem_cons_self
      simp only [if_neg htop.2.2.1]
      exact fun e hmem => hs e (List.mem_cons_of_mem top hmem)
  · rw [if_neg h2]
    intro e hmem
    rcases List.mem_cons.mp hmem with rfl | hmem
    · exact ⟨fun h => h0 (Or.inl h), fun h => h0 (Or.inr h), h2, he⟩
    · exact hs e hmem

theorem foldl_cleanStep_stack (elems stack : List (List Char)) (hs : ∀ e ∈ stack, PlainElem e)
    (he : ∀ e ∈ elems, '/' ∉ e) : ∀ e ∈ elems.foldl (cleanStep true) stack, PlainElem e := by
  induction elems generalizing stack with
  | nil => exact hs
  | cons d elems ih =>
    refine ih _ (cleanStep_stack stack d hs (he d List.mem_cons_self)) ?_
    exact fun e hmem => he e (List.mem_cons_of_mem d hmem)

theorem cleanStack_plain (path : List Char) : ∀ e ∈ cleanStack true path, PlainElem e :=
  foldl_cleanStep_stack _ [] (by simp) (splitOn_notMem '/' path)

theorem cleanStack_intercalate (comps : List (List Char)) (h : ∀ e ∈ comps, PlainElem e) :
    cleanStack true ('/' :: ['/'].intercalate comps) = comps.reverse := by
  have hskip (stack : List (List Char)) : cleanStep true stack [] = stack := by simp [cleanStep]
  rw [cleanStack, List.splitOn_cons_eq_if_modifyHead]
  simp only [BEq.rfl, if_true, List.foldl_cons, hskip]
  cases hc : comps with
  | nil => simp [hskip]
  | cons e es =>
    rw [List.splitOn_intercalate '/' (fun l hl => (h l (hc ▸ hl)).2.2.2) (List.cons_ne_nil e es),
      foldl_cleanStep_plain true _ [] (fun l hl => h l (hc ▸ hl)), List.append_nil]

theorem clean_clean (path : List Char) (h : isAbs path = true) : clean (clean path) = clean path := by
  have hplain : ∀ e ∈ (cleanStack true path).reverse, PlainElem e := fun e he =>
    cleanStack_plain path e (List.mem_reverse.mp he)
  have hfirst : clean path = '/' :: ['/'].intercalate (cleanStack true path).reverse := by
    simp [clean, h]
  rw [hfirst, clean, if_pos (by rfl)]
  simp only [show isAbs ('/' :: ['/'].intercalate (cleanStack true path).reverse) = true from rfl,
    cleanStack_intercalate _ hplain, List.reverse_reverse]

end Faultline
