import Galley.Document.Mark
import Mathlib.Data.List.Sort
/-!
# Marks in nesting order

Sorting marks and dropping repeats gives the one list of them in which every mark stands outside the
marks behind it. So the order and the number in which marks are given cannot be told from it.

## Main results

`eq_normalize_iff`: the list is determined by its order and by which marks are in it.
`normalize_eq_filter`: it is what a list leaves of all marks in nesting order.
-/
namespace Galley.Document.Mark

/-- Lists of the same marks, in any order and number. -/
def SameSet (marks others : List Mark) : Prop := ∀ mark, mark ∈ marks ↔ mark ∈ others

/-- All marks, the outermost first. -/
def nesting : List Mark := [.bold, .italic, .code]

/-- A mark is nested outside another one. -/
def Outside (mark other : Mark) : Prop := mark.depth < other.depth

instance (mark other : Mark) : Decidable (mark.Outside other) := inferInstanceAs (Decidable (_ < _))

instance : Std.Irrefl Outside := ⟨fun mark => Nat.lt_irrefl mark.depth⟩

instance : Std.Antisymm Outside :=
  ⟨fun _ _ before after => absurd after (Nat.lt_asymm before)⟩

theorem depth_inj {mark other : Mark} (same : mark.depth = other.depth) : mark = other := by
  cases mark <;> cases other <;> first | rfl | cases same

/-! ### Sorting -/

theorem mem_place_iff {mark other : Mark} {marks : List Mark} :
    other ∈ place mark marks ↔ other = mark ∨ other ∈ marks := by
  induction marks with
  | nil => simp [place]
  | cons first rest ih =>
    rw [place]
    split
    next => simp
    next =>
      simp only [List.mem_cons, ih]
      exact or_left_comm

theorem mem_sort_iff {mark : Mark} {marks : List Mark} : mark ∈ sort marks ↔ mark ∈ marks := by
  induction marks with
  | nil => rfl
  | cons first rest ih => rw [sort, mem_place_iff, List.mem_cons, ih]

theorem pairwise_place {mark : Mark} {marks : List Mark}
    (sorted : marks.Pairwise fun mark other => mark.depth ≤ other.depth) :
    (place mark marks).Pairwise fun mark other => mark.depth ≤ other.depth := by
  induction marks with
  | nil => exact List.pairwise_singleton _ _
  | cons first rest ih =>
    obtain ⟨least, later⟩ := List.pairwise_cons.mp sorted
    rw [place]
    split
    next before =>
      -- the new mark stands in front of all
      refine List.pairwise_cons.mpr ⟨fun other member => ?_, sorted⟩
      rcases List.mem_cons.mp member with rfl | behind
      · exact before
      · exact Nat.le_trans before (least other behind)
    next after =>
      refine List.pairwise_cons.mpr ⟨fun other member => ?_, ih later⟩
      rcases mem_place_iff.mp member with rfl | behind
      · omega
      · exact least other behind

theorem pairwise_sort (marks : List Mark) :
    (sort marks).Pairwise fun mark other => mark.depth ≤ other.depth := by
  induction marks with
  | nil => exact List.Pairwise.nil
  | cons mark rest ih => exact pairwise_place ih

/-! ### Repeats -/

theorem mem_dropRepeats_iff {mark : Mark} {marks : List Mark} :
    mark ∈ dropRepeats marks ↔ mark ∈ marks := by
  induction marks using dropRepeats.induct with
  | case1 => rfl
  | case2 => rfl
  | case3 first rest ih => simp [dropRepeats, ih]
  | case4 first next rest other ih => simp [dropRepeats, other, ih]

/-- In a sorted list repeats stand side by side, so none are left. -/
theorem pairwise_dropRepeats {marks : List Mark}
    (sorted : marks.Pairwise fun mark other => mark.depth ≤ other.depth) :
    (dropRepeats marks).Pairwise Outside := by
  induction marks using dropRepeats.induct with
  | case1 => exact List.Pairwise.nil
  | case2 => exact List.pairwise_singleton _ _
  | case3 first rest ih =>
    rw [dropRepeats, if_pos rfl]
    exact ih (List.pairwise_cons.mp sorted).2
  | case4 first next rest ne ih =>
    obtain ⟨least, later⟩ := List.pairwise_cons.mp sorted
    rw [dropRepeats, if_neg ne]
    refine List.pairwise_cons.mpr ⟨fun other member => ?_, ih later⟩
    -- the next mark is further inside, and the others are no further outside than it
    have inside : first.depth < next.depth :=
      Nat.lt_of_le_of_ne (least next (by simp)) fun same => ne (depth_inj same)
    rcases List.mem_cons.mp (mem_dropRepeats_iff.mp member) with rfl | behind
    · exact inside
    · exact Nat.lt_of_lt_of_le inside ((List.pairwise_cons.mp later).1 other behind)

/-! ### The normal form -/

theorem mem_normalize_iff (mark : Mark) (marks : List Mark) :
    mark ∈ normalize marks ↔ mark ∈ marks := by
  rw [normalize, mem_dropRepeats_iff, mem_sort_iff]

theorem pairwise_normalize (marks : List Mark) : (normalize marks).Pairwise Outside :=
  pairwise_dropRepeats (pairwise_sort marks)

/-- No other list has these marks in nesting order, each at most once. -/
theorem eq_normalize_iff {normal marks : List Mark} :
    normal = normalize marks ↔ normal.Pairwise Outside ∧ SameSet normal marks := by
  constructor
  · rintro rfl
    exact ⟨pairwise_normalize marks, fun mark => mem_normalize_iff mark marks⟩
  · rintro ⟨ordered, same⟩
    refine ordered.eq_of_mem_iff (pairwise_normalize marks) fun mark => ?_
    rw [mem_normalize_iff]
    exact same mark

theorem normalize_congr {marks others : List Mark} (same : SameSet marks others) :
    normalize marks = normalize others := by
  rw [eq_normalize_iff]
  exact ⟨pairwise_normalize marks, fun mark => (mem_normalize_iff mark marks).trans (same mark)⟩

theorem normalize_normalize (marks : List Mark) :
    normalize (normalize marks) = normalize marks :=
  normalize_congr fun mark => mem_normalize_iff mark marks

theorem normalize_eq_filter (marks : List Mark) :
    normalize marks = nesting.filter fun mark => marks.contains mark := by
  symm
  rw [eq_normalize_iff]
  have ordered : nesting.Pairwise Outside := by decide
  refine ⟨ordered.filter _, fun mark => ?_⟩
  have known : mark ∈ nesting := by cases mark <;> decide
  simp [known]

theorem normalize_sublist (marks : List Mark) : (normalize marks).Sublist nesting := by
  rw [normalize_eq_filter]
  exact List.filter_sublist

/-! ### Marks around a content -/

/-- A content inside what stands for its marks: bold around italic around code, each once. -/
def nested {α : Type} (around : Mark → α → α) (marks : List Mark) (content : α) : α :=
  let wrapped (mark : Mark) (content : α) := if mark ∈ marks then around mark content else content
  wrapped .bold (wrapped .italic (wrapped .code content))

theorem foldr_normalize {α : Type} (around : Mark → α → α) (marks : List Mark) (content : α) :
    (normalize marks).foldr around content = nested around marks content := by
  simp only [normalize_eq_filter, nesting, nested, List.contains_iff_mem, List.filter_cons,
    List.filter_nil]
  split_ifs <;> rfl

end Galley.Document.Mark
