import Mathlib.Data.Finset.Sort
import Mathlib.Order.SymmDiff

namespace Hlib

/-- The standard containers that hold plain values. -/
inductive ContainerKind
  | vector
  | list
  | forwardList
  | set
  deriving DecidableEq

namespace ContainerKind

/-- `has_push_back_method`. -/
def hasPushBack : ContainerKind → Bool
  | vector | list => true
  | forwardList | set => false

/-- `has_push_front_method`. -/
def hasPushFront : ContainerKind → Bool
  | list | forwardList => true
  | vector | set => false

end ContainerKind

/-- The values of a container in the order of its iterators, which is ascending for a set. -/
structure Container (kind : ContainerKind) (α : Type) [LinearOrder α] where
  elements : List α
  ascending : kind = .set → elements.SortedLT

namespace Container

variable {kind : ContainerKind} {α : Type} [LinearOrder α]

/-- `insert(first, last)` of a `std::set`. -/
def insertRange (set : Finset α) (range : List α) : Finset α := range.foldl (fun s value => insert value s) set

/-- `T(set.begin(), set.end())`. -/
def ofSet (kind : ContainerKind) (set : Finset α) : Container kind α := ⟨set.sort, fun _ => set.sortedLT_sort⟩

def empty (kind : ContainerKind) : Container kind α := ⟨[], fun _ => List.Pairwise.nil.sortedLT⟩

def pushBack (c : Container kind α) (value : α) (given : kind.hasPushBack) : Container kind α where
  elements := c.elements ++ [value]
  ascending := by
    rintro rfl
    cases given

def pushFront (c : Container kind α) (value : α) (given : kind.hasPushFront) : Container kind α where
  elements := value :: c.elements
  ascending := by
    rintro rfl
    cases given

/-- `insert` of a set. -/
def insertValue (c : Container kind α) (value : α) : Container kind α :=
  ofSet kind (insert value c.elements.toFinset)

/-- The way of adding that the traits of the container select. -/
def add (c : Container kind α) (value : α) : Container kind α :=
  if given : kind.hasPushBack then c.pushBack value given
  else if given : kind.hasPushFront then c.pushFront value given
  else c.insertValue value

/-- `make_union`. -/
def makeUnion (lhs rhs : Container kind α) : Container kind α :=
  ofSet kind (insertRange (insertRange ∅ lhs.elements) rhs.elements)

/-- One pass of `make_intersection`, over the set of values left and the result. -/
def intersectPass (state : Finset α × Container kind α) (value : α) : Finset α × Container kind α :=
  if value ∈ state.1 then (state.1.erase value, state.2.add value) else state

/-- `make_intersection`. -/
def makeIntersection (lhs rhs : Container kind α) : Container kind α :=
  (rhs.elements.foldl intersectPass (insertRange ∅ lhs.elements, empty kind)).2

/-- One pass of `make_complement`, over the values that the other set lacks. -/
def complementPass (other result : Finset α) (value : α) : Finset α :=
  if value ∈ other then result else insert value result

/-- `make_complement`. -/
def makeComplement (lhs rhs : Container kind α) : Container kind α :=
  let lhsSet := insertRange ∅ lhs.elements
  let rhsSet := insertRange ∅ rhs.elements
  let result := lhs.elements.foldl (complementPass rhsSet) ∅
  ofSet kind (rhs.elements.foldl (complementPass lhsSet) result)

/-- The set of the elements. -/
def values (c : Container kind α) : Finset α := c.elements.toFinset

/-- A container without duplicates holds the values of a set. -/
structure Holds (c : Container kind α) (set : Finset α) : Prop where
  nodup : c.elements.Nodup
  values : c.values = set

theorem insertRange_eq (set : Finset α) (range : List α) : insertRange set range = set ∪ range.toFinset := by
  induction range generalizing set with
  | nil => simp [insertRange]
  | cons value rest ih =>
    have step : insertRange set (value :: rest) = insertRange (insert value set) rest := rfl
    rw [step, ih, List.toFinset_cons, Finset.insert_union, Finset.union_insert]

theorem ofSet_holds (kind : ContainerKind) (set : Finset α) : (ofSet kind set).Holds set :=
  ⟨set.sort_nodup _, Finset.sort_toFinset set _⟩

theorem add_values (c : Container kind α) (value : α) : (c.add value).values = insert value c.values := by
  unfold add
  split
  next back =>
    have appended : (c.elements ++ [value]).toFinset = insert value c.elements.toFinset := by
      rw [List.toFinset_append, List.toFinset_cons, List.toFinset_nil, Finset.union_insert, Finset.union_empty]
    exact appended
  next =>
    split
    next front => exact List.toFinset_cons
    next => exact (ofSet_holds kind _).values

theorem add_nodup {c : Container kind α} {value : α} (nodup : c.elements.Nodup) (fresh : value ∉ c.values) :
    (c.add value).elements.Nodup := by
  have absent : value ∉ c.elements := fun member => fresh (List.mem_toFinset.mpr member)
  unfold add
  split
  next back => exact List.nodup_append.mpr ⟨nodup, List.nodup_singleton _, by grind⟩
  next =>
    split
    next front => exact List.nodup_cons.mpr ⟨absent, nodup⟩
    next => exact (ofSet_holds kind _).nodup

/-- The invariant of the scan: what is left are the values not yet seen, the result holds those seen. -/
structure Scanned (lhs seen : Finset α) (state : Finset α × Container kind α) : Prop where
  left : state.1 = lhs \ seen
  result : state.2.Holds (lhs ∩ seen)

theorem Scanned.step {lhs seen : Finset α} {state : Finset α × Container kind α} (scanned : Scanned lhs seen state)
    (value : α) : Scanned lhs (insert value seen) (intersectPass state value) := by
  have left := scanned.left
  have result := scanned.result
  unfold intersectPass
  split
  next member =>
    obtain ⟨inside, unseen⟩ := Finset.mem_sdiff.mp (left ▸ member)
    have fresh : value ∉ state.2.values := by
      rw [result.values]
      exact fun known => unseen (Finset.mem_inter.mp known).2
    refine ⟨?_, add_nodup result.nodup fresh, ?_⟩
    case refine_1 => rw [left, Finset.sdiff_insert]
    case refine_2 => rw [add_values, result.values, Finset.inter_insert_of_mem inside]
  next absent =>
    have known : value ∈ lhs → value ∈ seen := by
      intro inside
      by_contra unseen
      exact absent (left ▸ Finset.mem_sdiff.mpr ⟨inside, unseen⟩)
    refine ⟨?_, result.nodup, ?_⟩
    case refine_1 =>
      rw [left]
      ext x
      grind
    case refine_2 =>
      rw [result.values]
      ext x
      grind

theorem Scanned.run {lhs seen : Finset α} {state : Finset α × Container kind α} (scanned : Scanned lhs seen state)
    (range : List α) : Scanned lhs (seen ∪ range.toFinset) (range.foldl intersectPass state) := by
  induction range generalizing seen state with
  | nil => simpa using scanned
  | cons value rest ih =>
    have reached := ih (scanned.step value)
    rwa [List.toFinset_cons, Finset.union_insert, ← Finset.insert_union]

theorem complementPass_run (other result : Finset α) (range : List α) :
    range.foldl (complementPass other) result = result ∪ (range.toFinset \ other) := by
  induction range generalizing result with
  | nil => simp
  | cons value rest ih =>
    rw [List.foldl_cons, ih, List.toFinset_cons]
    unfold complementPass
    split
    next member => rw [Finset.insert_sdiff_of_mem _ member]
    next absent => rw [Finset.insert_sdiff_of_notMem _ absent, Finset.insert_union, Finset.union_insert]

theorem makeUnion_holds (lhs rhs : Container kind α) : (makeUnion lhs rhs).Holds (lhs.values ∪ rhs.values) := by
  have set : insertRange (insertRange ∅ lhs.elements) rhs.elements = lhs.values ∪ rhs.values := by
    rw [insertRange_eq, insertRange_eq, Finset.empty_union]
    rfl
  have computed := ofSet_holds kind (lhs.values ∪ rhs.values)
  rw [← set] at computed ⊢
  exact computed

theorem makeIntersection_holds (lhs rhs : Container kind α) :
    (makeIntersection lhs rhs).Holds (lhs.values ∩ rhs.values) := by
  have start : Scanned lhs.values ∅ (insertRange ∅ lhs.elements, empty kind) := by
    refine ⟨?_, List.nodup_nil, ?_⟩
    case refine_1 => rw [insertRange_eq, Finset.empty_union, Finset.sdiff_empty, values]
    case refine_2 => rw [Finset.inter_empty]; rfl
  have reached := (start.run rhs.elements).result
  rwa [Finset.empty_union] at reached

theorem makeComplement_holds (lhs rhs : Container kind α) :
    (makeComplement lhs rhs).Holds (symmDiff lhs.values rhs.values) := by
  have set : rhs.elements.foldl (complementPass (insertRange ∅ lhs.elements))
      (lhs.elements.foldl (complementPass (insertRange ∅ rhs.elements)) ∅) = symmDiff lhs.values rhs.values := by
    rw [complementPass_run, complementPass_run, insertRange_eq, insertRange_eq, Finset.empty_union,
      Finset.empty_union, Finset.empty_union]
    rfl
  have computed := ofSet_holds kind (symmDiff lhs.values rhs.values)
  rw [← set] at computed ⊢
  exact computed

theorem Holds.mem_iff {c : Container kind α} {set : Finset α} (h : c.Holds set) (value : α) :
    value ∈ c.elements ↔ value ∈ set := by
  rw [← h.values, Container.values, List.mem_toFinset]

/-- Containers that hold the same set have the same elements up to their order. -/
theorem Holds.perm {c d : Container kind α} {set : Finset α} (h : c.Holds set) (g : d.Holds set) :
    c.elements.Perm d.elements :=
  List.perm_of_nodup_nodup_toFinset_eq h.nodup g.nodup (h.values.trans g.values.symm)

/-- The helpers compute union, intersection and symmetric difference, whatever the traits of the container select. -/
theorem make_sets (lhs rhs : Container kind α) :
    (makeUnion lhs rhs).Holds (lhs.values ∪ rhs.values) ∧
      (makeIntersection lhs rhs).Holds (lhs.values ∩ rhs.values) ∧
      (makeComplement lhs rhs).Holds (symmDiff lhs.values rhs.values) ∧
      (makeUnion lhs rhs).elements.Perm (makeUnion rhs lhs).elements ∧
      (makeIntersection lhs rhs).elements.Perm (makeIntersection rhs lhs).elements ∧
      (makeComplement lhs rhs).elements.Perm (makeComplement rhs lhs).elements ∧
      (∀ value, value ∈ (makeComplement lhs rhs).elements ↔
        value ∈ (makeUnion lhs rhs).elements ∧ value ∉ (makeIntersection lhs rhs).elements) ∧
      (makeComplement lhs lhs).elements = [] := by
  have united := makeUnion_holds lhs rhs
  have shared := makeIntersection_holds lhs rhs
  have separate := makeComplement_holds lhs rhs
  refine ⟨united, shared, separate, united.perm ?_, shared.perm ?_, separate.perm ?_, fun value => ?_, ?_⟩
  case refine_1 => exact Finset.union_comm rhs.values lhs.values ▸ makeUnion_holds rhs lhs
  case refine_2 => exact Finset.inter_comm rhs.values lhs.values ▸ makeIntersection_holds rhs lhs
  case refine_3 => exact symmDiff_comm rhs.values lhs.values ▸ makeComplement_holds rhs lhs
  case refine_4 =>
    rw [separate.mem_iff, united.mem_iff, shared.mem_iff, Finset.mem_symmDiff, Finset.mem_union, Finset.mem_inter]
    tauto
  case refine_5 =>
    have nothing := (makeComplement_holds lhs lhs).values
    rw [symmDiff_self] at nothing
    exact List.toFinset_eq_empty_iff _ |>.mp nothing

end Container

end Hlib
