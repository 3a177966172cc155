/-! The two ways an operation on bit rows can fail, and how a failure travels through a fold.
A graph answers for its own shape, so every fault comes from an id, a bit or a row that the
caller supplied.
-/

namespace Dataflow

universe u

/-- Why a row operation has no result. -/
inductive Fault where
  /-- A node outside its table or graph, or a bit beyond the last word of its row. -/
  | indexOutOfRange
  /-- Two rows of different length were to be combined word by word. -/
  | rowLengthMismatch
deriving DecidableEq, Repr

/-- The explanation that goes with a fault; an index out of range carries none. -/
def Fault.message? : Fault → Option String
  | .indexOutOfRange => none
  | .rowLengthMismatch => some "bit rows must have the same number of words"

/-- A bound computation succeeds exactly when both of its parts do, by cases on the first. -/
theorem bind_eq_ok {α β : Type} {first : Except Fault α} {next : α → Except Fault β}
    {result : β}
    : first >>= next = .ok result ↔ ∃ middle, first = .ok middle ∧ next middle = .ok result := by
  cases first with
  | error fault => simp [bind, Except.bind]
  | ok value => simp [bind, Except.bind]

theorem ok_bind {ε α β : Type} (value : α) (next : α → Except ε β)
    : (.ok value : Except ε α) >>= next = next value :=
  rfl

/-- A relation that every successful step keeps is kept by the whole fold, by induction on
the list of inputs.
-/
theorem foldlM_related {α : Type} {β : Type u} {step : α → β → Except Fault α}
    (related : α → α → Prop) (refl : ∀ state, related state state)
    (trans : ∀ first middle last, related first middle → related middle last → related first last)
    (inputs : List β) (start final : α)
    (kept : ∀ state, ∀ input ∈ inputs, ∀ next, step state input = .ok next → related state next)
    (accepted : inputs.foldlM step start = .ok final)
    : related start final := by
  induction inputs generalizing start with
  | nil =>
      cases accepted
      exact refl _
  | cons input rest ih =>
      rw [List.foldlM_cons] at accepted
      obtain ⟨middle, first, remaining⟩ := bind_eq_ok.mp accepted
      exact trans start middle final (kept start input (by simp) middle first)
        (ih middle (fun state later member => kept state later (List.mem_cons_of_mem input member))
          remaining)

/-- An invariant that every successful step keeps holds after the whole fold. -/
theorem foldlM_keeps {α : Type} {β : Type u} {step : α → β → Except Fault α}
    (invariant : α → Prop) {inputs : List β} {start final : α}
    (accepted : inputs.foldlM step start = .ok final) (initially : invariant start)
    (kept : ∀ state, invariant state → ∀ input ∈ inputs, ∀ next, step state input = .ok next
      → invariant next)
    : invariant final :=
  foldlM_related (fun before after => invariant before → invariant after)
    (fun _ holds => holds) (fun _ _ _ first second holds => second (first holds)) inputs start final
    (fun state input member next stepped holds => kept state holds input member next stepped)
    accepted initially

/-- A fold whose steps succeed under an invariant succeeds, and every view that follows a model step
by step follows the model's own fold, by induction on the list of inputs.
-/
theorem foldlM_simulates {α κ ν : Type} {β : Type u} {step : α → β → Except Fault α}
    (invariant : α → Prop) (view : κ → α → ν) (model : κ → ν → β → ν) (inputs : List β) (start : α)
    (initially : invariant start)
    (steps : ∀ state, invariant state → ∀ input ∈ inputs,
      ∃ next, step state input = .ok next ∧ invariant next
        ∧ ∀ key, view key next = model key (view key state) input)
    : ∃ final, inputs.foldlM step start = .ok final ∧ invariant final
      ∧ ∀ key, view key final = inputs.foldl (model key) (view key start) := by
  induction inputs generalizing start with
  | nil => exact ⟨start, rfl, initially, fun _ => rfl⟩
  | cons input rest ih =>
      obtain ⟨middle, first, kept, follows⟩ := steps start initially input (by simp)
      obtain ⟨final, remaining, finally_, views⟩ := ih middle kept
        (fun state holds later member =>
          steps state holds later (List.mem_cons_of_mem input member))
      refine ⟨final, ?_, finally_, fun key => ?_⟩
      · rw [List.foldlM_cons]
        exact bind_eq_ok.mpr ⟨middle, first, remaining⟩
      · rw [views key, follows key, List.foldl_cons]

/-- Two folds over the same inputs keep a relation between their states if each pair of steps does,
the second of which must succeed where the first does. By induction on the list of inputs.
-/
theorem foldlM_lockstep {α γ : Type} {β : Type u} {step : α → β → Except Fault α}
    {follow : γ → β → Except Fault γ} (related : α → γ → Prop) {inputs : List β} {start final : α}
    {begun : γ} (initially : related start begun)
    (steps : ∀ state following, related state following → ∀ input ∈ inputs, ∀ next,
      step state input = .ok next
      → ∃ followed, follow following input = .ok followed ∧ related next followed)
    (ran : inputs.foldlM step start = .ok final)
    : ∃ ended, inputs.foldlM follow begun = .ok ended ∧ related final ended := by
  induction inputs generalizing start begun with
  | nil =>
      cases ran
      exact ⟨begun, rfl, initially⟩
  | cons input rest ih =>
      rw [List.foldlM_cons] at ran
      obtain ⟨middle, first, remaining⟩ := bind_eq_ok.mp ran
      obtain ⟨followed, alongside, kept⟩ := steps start begun initially input (by simp) middle first
      obtain ⟨ended, finished, holds⟩ := ih kept
        (fun state following holds later member =>
          steps state following holds later (List.mem_cons_of_mem input member))
        remaining
      refine ⟨ended, ?_, holds⟩
      rw [List.foldlM_cons]
      exact bind_eq_ok.mpr ⟨followed, alongside, finished⟩

/-- A fold whose steps succeed under an invariant and keep it succeeds and keeps it. -/
theorem foldlM_succeeds {α : Type} {β : Type u} {step : α → β → Except Fault α}
    (invariant : α → Prop) (inputs : List β) (start : α) (initially : invariant start)
    (steps : ∀ state, invariant state → ∀ input ∈ inputs,
      ∃ next, step state input = .ok next ∧ invariant next)
    : ∃ final, inputs.foldlM step start = .ok final ∧ invariant final := by
  obtain ⟨final, folded, holds, _⟩ := foldlM_simulates invariant (fun (_ : Unit) _ => ())
    (fun _ _ _ => ()) inputs start initially
    (by
      intro state holds input member
      obtain ⟨next, stepped, kept⟩ := steps state holds input member
      exact ⟨next, stepped, kept, fun _ => rfl⟩)
  exact ⟨final, folded, holds⟩

/-- A fold follows a view of its state that each of its steps follows, failures included. By
induction on the list of inputs.
-/
theorem foldlM_view {α β γ : Type} {step : α → β → Except Fault α} {viewed : γ → β → Except Fault γ}
    (view : α → γ)
    (steps : ∀ state input, viewed (view state) input = (step state input).map view)
    (inputs : List β) (start : α)
    : inputs.foldlM viewed (view start) = (inputs.foldlM step start).map view := by
  induction inputs generalizing start with
  | nil => rfl
  | cons input rest ih =>
      rw [List.foldlM_cons, List.foldlM_cons, steps]
      cases step start input with
      | error fault => rfl
      | ok next => exact ih next

/-- Mapping a computation that always succeeds over a list maps its results, by induction. -/
theorem mapM_eq_ok_map {α β : Type} {compute : α → Except Fault β} {result : α → β}
    (inputs : List α) (succeeds : ∀ input ∈ inputs, compute input = .ok (result input))
    : inputs.mapM compute = .ok (inputs.map result) := by
  induction inputs with
  | nil => rfl
  | cons input rest ih =>
      rw [List.mapM_cons, succeeds input (by simp),
        ih fun later member => succeeds later (List.mem_cons_of_mem input member)]
      rfl

/-- Every result of a mapped computation is that of one of the inputs, by induction on them. -/
theorem exists_of_mem_mapM {α β : Type} {compute : α → Except Fault β} {inputs : List α}
    {results : List β} (mapped : inputs.mapM compute = .ok results) {result : β}
    (member : result ∈ results)
    : ∃ input ∈ inputs, compute input = .ok result := by
  induction inputs generalizing results with
  | nil =>
      cases mapped
      cases member
  | cons input rest ih =>
      rw [List.mapM_cons] at mapped
      obtain ⟨first, computed, afterFirst⟩ := bind_eq_ok.mp mapped
      obtain ⟨others, remaining, last⟩ := bind_eq_ok.mp afterFirst
      cases last
      rcases List.mem_cons.mp member with rfl | later
      · exact ⟨input, List.mem_cons_self, computed⟩
      · obtain ⟨other, listed, found⟩ := ih remaining later
        exact ⟨other, List.mem_cons_of_mem input listed, found⟩

end Dataflow
