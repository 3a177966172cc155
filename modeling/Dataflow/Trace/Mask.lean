/-! Masks select the classes of events that a traced run reports. A mask is a set of event
classes; its code is the sum of the codes of its members.
-/

namespace Dataflow

/-- The classes of events that a mask can select. -/
inductive EventClass where
  /-- The start and the end of a run. -/
  | solve
  /-- The start and the end of each sweep. -/
  | sweep
  /-- A change to the facts on entry to a node. -/
  | entry
  /-- A change to the scope-end kills of a node that an edge leaves scopes from. -/
  | flowExit
deriving DecidableEq, Repr

/-- A set of event classes. -/
structure Mask where
  solve : Bool
  sweep : Bool
  entry : Bool
  flowExit : Bool
deriving DecidableEq, Repr

namespace Mask

/-- The mask that selects nothing. -/
def none : Mask :=
  { solve := false, sweep := false, entry := false, flowExit := false }

instance : Inhabited Mask :=
  ⟨none⟩

/-- The mask of one event class. -/
def only (eventClass : EventClass) : Mask :=
  {
    solve := eventClass = .solve,
    sweep := eventClass = .sweep,
    entry := eventClass = .entry,
    flowExit := eventClass = .flowExit
  }

/-- Whether a mask selects an event class. -/
def selects (mask : Mask) : EventClass → Bool
  | .solve => mask.solve
  | .sweep => mask.sweep
  | .entry => mask.entry
  | .flowExit => mask.flowExit

/-- The classes selected by either mask. -/
def union (left right : Mask) : Mask :=
  {
    solve := left.solve || right.solve,
    sweep := left.sweep || right.sweep,
    entry := left.entry || right.entry,
    flowExit := left.flowExit || right.flowExit
  }

instance : OrOp Mask :=
  ⟨union⟩

/-- The mask of a list of event classes. -/
def ofClasses (classes : List EventClass) : Mask :=
  classes.foldl (fun mask eventClass => mask ||| only eventClass) none

/-- Whether the mask selects every class of `other`. -/
def contains (mask other : Mask) : Bool :=
  (!other.solve || mask.solve) && (!other.sweep || mask.sweep)
    && (!other.entry || mask.entry) && (!other.flowExit || mask.flowExit)

/-- The code of a mask: each class counts as its own power of two. -/
def code (mask : Mask) : Nat :=
  mask.solve.toNat + 2 * mask.sweep.toNat + 4 * mask.entry.toNat + 8 * mask.flowExit.toNat

/-- The text a mask is reported as. -/
def text (mask : Mask) : String :=
  s!"SolveTraceMask({mask.code})"

/-- A union selects what either side selects. -/
@[simp]
theorem selects_or (left right : Mask) (eventClass : EventClass)
    : (left ||| right).selects eventClass
      = (left.selects eventClass || right.selects eventClass) := by
  cases eventClass <;> rfl

/-- Containment is inclusion of the selected classes, by checking the four classes. -/
theorem contains_iff (mask other : Mask)
    : mask.contains other = true
      ↔ ∀ eventClass, other.selects eventClass = true → mask.selects eventClass = true := by
  constructor
  · intro h eventClass selected
    cases eventClass <;> simp_all [contains, selects]
  · intro h
    have solve := h .solve
    have sweep := h .sweep
    have entry := h .entry
    have flowExit := h .flowExit
    simp only [selects] at solve sweep entry flowExit
    simp only [contains, Bool.and_eq_true, Bool.or_eq_true, Bool.not_eq_eq_eq_not, Bool.not_true]
    refine ⟨⟨⟨?_, ?_⟩, ?_⟩, ?_⟩
    · cases selected : other.solve <;> simp [solve, selected]
    · cases selected : other.sweep <;> simp [sweep, selected]
    · cases selected : other.entry <;> simp [entry, selected]
    · cases selected : other.flowExit <;> simp [flowExit, selected]

end Mask

end Dataflow
