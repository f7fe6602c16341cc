import Mathlib.Logic.Basic
import Mathlib.Data.Option.Basic

/-! Runs of a partial labelled transition function. A step that is undefined
ends the run; the states reached before it still count. The rules below turn a
fact about one step into a fact about every run. -/
namespace Transition

variable {State Event Output Abstract : Type*}

/-- The state after a whole list of events, when every step is defined. -/
def run (step : State → Event → Option State) : State → List Event → Option State
  | s, [] => some s
  | s, e :: es => (step s e).bind fun t => run step t es

/-- Each attempted step of the run meets the guard in the state before it.
The last attempted step may be undefined. -/
def AllSteps (step : State → Event → Option State) (guard : State → Event → Prop) :
    State → List Event → Prop
  | _, [] => True
  | s, e :: es => guard s e ∧ ∀ t, step s e = some t → AllSteps step guard t es

/-- Every state reached along the run, the first one included. -/
def AllStates (step : State → Event → Option State) (P : State → Prop) :
    State → List Event → Prop
  | s, [] => P s
  | s, e :: es => P s ∧ ∀ t, step s e = some t → AllStates step P t es

instance decidableAllSteps (step : State → Event → Option State)
    (guard : State → Event → Prop) [∀ s e, Decidable (guard s e)] (s : State) (es : List Event) :
    Decidable (AllSteps step guard s es) :=
  match es with
  | [] => .isTrue trivial
  | e :: es =>
      match h : step s e with
      | none => decidable_of_iff (guard s e) (by simp [AllSteps, h])
      | some t =>
          have := decidableAllSteps step guard t es
          decidable_of_iff (guard s e ∧ AllSteps step guard t es) (by simp [AllSteps, h])

instance decidableAllStates (step : State → Event → Option State) (P : State → Prop)
    [∀ s, Decidable (P s)] (s : State) (es : List Event) : Decidable (AllStates step P s es) :=
  match es with
  | [] => inferInstanceAs (Decidable (P s))
  | e :: es =>
      match h : step s e with
      | none => decidable_of_iff (P s) (by simp [AllStates, h])
      | some t =>
          have := decidableAllStates step P t es
          decidable_of_iff (P s ∧ AllStates step P t es) (by simp [AllStates, h])

/-- States reached from an initial one by finitely many defined steps. -/
inductive Reachable (step : State → Event → Option State) (initial : State → Prop) :
    State → Prop where
  | start {s : State} (h : initial s) : Reachable step initial s
  | next {s t : State} {e : Event} (prior : Reachable step initial s)
      (last : step s e = some t) : Reachable step initial t

variable {step : State → Event → Option State}

/-- The induction behind every safety result: what holds initially and is
kept by each step holds of every reachable state. -/
theorem Reachable.invariant {initial : State → Prop} {s : State}
    (reach : Reachable step initial s) (inv : State → Prop) (hInitial : ∀ s, initial s → inv s)
    (hStep : ∀ s e t, inv s → step s e = some t → inv t) : inv s := by
  induction reach with
  | start h => exact hInitial _ h
  | next prior last ih => exact hStep _ _ _ ih last

theorem Reachable.run {initial : State → Prop} {s t : State} {es : List Event}
    (reach : Reachable step initial s) (h : Transition.run step s es = some t) :
    Reachable step initial t := by
  induction es generalizing s with
  | nil =>
      cases h
      exact reach
  | cons e es ih =>
      obtain ⟨u, hu, ht⟩ := Option.bind_eq_some_iff.mp h
      exact ih (reach.next hu) ht

/-- A run of two lists of events is the run of the first followed by the run
of the second. -/
theorem run_append (s : State) (es fs : List Event) :
    run step s (es ++ fs) = (run step s es).bind fun t => run step t fs := by
  induction es generalizing s with
  | nil => rfl
  | cons e es ih =>
      simp only [List.cons_append, run, Option.bind_assoc]
      congr 1
      funext t
      exact ih t

/-- An invariant kept by each defined step survives a whole run. -/
theorem run_invariant (inv : State → Prop) {s t : State} {es : List Event}
    (hStep : ∀ s e t, inv s → step s e = some t → inv t)
    (hs : inv s) (h : run step s es = some t) : inv t :=
  ((Reachable.start rfl : Reachable step (· = s) s).run h).invariant inv
    (by rintro _ rfl; exact hs) hStep

/-- A guarded invariant: when each step of the run meets the guard and such
steps keep the invariant, every state reached satisfies it. -/
theorem AllSteps.allStates {guard : State → Event → Prop} {inv : State → Prop} {s : State}
    {es : List Event} (guarded : AllSteps step guard s es)
    (hStep : ∀ s e t, inv s → guard s e → step s e = some t → inv t) (hs : inv s) :
    AllStates step inv s es := by
  induction es generalizing s with
  | nil => exact hs
  | cons e es ih =>
      exact ⟨hs, fun t ht => ih (guarded.2 t ht) (hStep s e t hs guarded.1 ht)⟩

/-- The guard holds of the steps attempted after a defined prefix. -/
theorem AllSteps.after_run {guard : State → Event → Prop} {s t : State} {es fs : List Event}
    (guarded : AllSteps step guard s (es ++ fs)) (h : run step s es = some t) :
    AllSteps step guard t fs := by
  induction es generalizing s with
  | nil =>
      cases h
      exact guarded
  | cons e es ih =>
      obtain ⟨u, hu, ht⟩ := Option.bind_eq_some_iff.mp h
      exact ih (guarded.2 u hu) ht

/-- Where the invariant holds and the guard keeps it, a guard that it implies is met. -/
theorem AllSteps.imp {guard weaker : State → Event → Prop} {s : State} {es : List Event}
    (guarded : AllSteps step guard s es) (inv : State → Prop)
    (hStep : ∀ s e t, inv s → guard s e → step s e = some t → inv t)
    (hImp : ∀ s e, inv s → guard s e → weaker s e) (hs : inv s) : AllSteps step weaker s es := by
  induction es generalizing s with
  | nil => trivial
  | cons e es ih =>
      exact ⟨hImp s e hs guarded.1, fun t ht => ih (guarded.2 t ht) (hStep s e t hs guarded.1 ht)⟩

/-- A guard that the invariant implies is met by every step. -/
theorem allSteps_of_invariant {guard : State → Event → Prop} (inv : State → Prop) {s : State}
    (hStep : ∀ s e t, inv s → step s e = some t → inv t) (hGuard : ∀ s e, inv s → guard s e)
    (hs : inv s) (es : List Event) : AllSteps step guard s es := by
  induction es generalizing s with
  | nil => trivial
  | cons e es ih => exact ⟨hGuard s e hs, fun t ht => ih (hStep s e t hs ht)⟩

/-- The same for a list of events of one kind, when those keep the invariant. -/
theorem allSteps_of_events {guard : State → Event → Prop} (inv : State → Prop) {kind : Event → Prop}
    (hStep : ∀ s e t, inv s → kind e → step s e = some t → inv t)
    (hGuard : ∀ s e, inv s → kind e → guard s e) {s : State} (hs : inv s) {es : List Event}
    (hKind : ∀ e ∈ es, kind e) : AllSteps step guard s es := by
  induction es generalizing s with
  | nil => trivial
  | cons e es ih =>
      have hHere := hKind e (List.mem_cons_self ..)
      exact ⟨hGuard s e hs hHere, fun t ht => ih (hStep s e t hs hHere ht) fun e hMem =>
        hKind e (List.mem_cons_of_mem _ hMem)⟩

/-- An invariant that each step keeps holds of every state reached. -/
theorem allStates_of_invariant (inv : State → Prop) {s : State}
    (hStep : ∀ s e t, inv s → step s e = some t → inv t) (hs : inv s) (es : List Event) :
    AllStates step inv s es := by
  induction es generalizing s with
  | nil => exact hs
  | cons e es ih => exact ⟨hs, fun t ht => ih (hStep s e t hs ht)⟩

theorem AllStates.mono {P Q : State → Prop} {s : State} {es : List Event}
    (h : AllStates step P s es) (hImp : ∀ s, P s → Q s) : AllStates step Q s es := by
  induction es generalizing s with
  | nil => exact hImp s h
  | cons e es ih => exact ⟨hImp s h.1, fun t ht => ih (h.2 t ht)⟩

/-- Two guards that agree wherever the invariant holds agree on whole runs. -/
theorem allSteps_congr {P Q : State → Event → Prop} (inv : State → Prop) {s : State}
    (hStep : ∀ s e t, inv s → step s e = some t → inv t)
    (hAgree : ∀ s e, inv s → (P s e ↔ Q s e)) (hs : inv s) (es : List Event) :
    AllSteps step P s es ↔ AllSteps step Q s es := by
  induction es generalizing s with
  | nil => exact Iff.rfl
  | cons e es ih =>
      have hTail (t : State) (ht : step s e = some t) := ih (hStep s e t hs ht)
      exact and_congr (hAgree s e hs) (forall_congr' fun t =>
        forall_congr' fun ht => hTail t ht)

/-- When, under the invariant, a step keeps the property exactly if it meets
the guard, the runs that stay in the property are the guarded ones. -/
theorem allStates_iff_allSteps {guard : State → Event → Prop} (inv : State → Prop)
    {P : State → Prop} {s : State} (hStep : ∀ s e t, inv s → step s e = some t → inv t)
    (hGuard : ∀ s e, inv s → P s → (guard s e ↔ ∀ t, step s e = some t → P t))
    (hs : inv s) (hP : P s) (es : List Event) :
    AllStates step P s es ↔ AllSteps step guard s es := by
  induction es generalizing s with
  | nil => simp [AllStates, AllSteps, hP]
  | cons e es ih =>
      constructor
      · rintro ⟨_, hRest⟩
        have hNext : ∀ t, step s e = some t → P t := by
          intro t ht
          have hAll := hRest t ht
          cases es with
          | nil => exact hAll
          | cons => exact hAll.1
        exact ⟨(hGuard s e hs hP).mpr hNext, fun t ht =>
          (ih (hStep s e t hs ht) (hNext t ht)).mp (hRest t ht)⟩
      · rintro ⟨hHere, hRest⟩
        refine ⟨hP, fun t ht => ?_⟩
        exact (ih (hStep s e t hs ht) ((hGuard s e hs hP).mp hHere t ht)).mpr (hRest t ht)

/-- The same for a run of events of one kind that is defined as a whole. Nothing is
asked of undefined steps, and the invariant has to survive only while the property
holds. -/
theorem allStates_iff_allSteps_of_events {guard : State → Event → Prop} {kind : Event → Prop}
    (inv : State → Prop) {P : State → Prop} {s : State} {es : List Event}
    (hGuard : ∀ s e t, inv s → kind e → step s e = some t → (guard s e ↔ P t))
    (hStep : ∀ s e t, inv s → step s e = some t → P t → inv t)
    (hs : inv s) (hP : P s) (hKind : ∀ e ∈ es, kind e) (hRun : (run step s es).isSome) :
    AllStates step P s es ↔ AllSteps step guard s es := by
  induction es generalizing s with
  | nil => exact ⟨fun _ => trivial, fun _ => hP⟩
  | cons e es ih =>
      obtain ⟨t, hDefined⟩ : ∃ t, step s e = some t := by
        rw [run] at hRun
        exact Option.isSome_iff_exists.mp (Option.isSome_of_isSome_bind hRun)
      rw [run, hDefined, Option.bind_some] at hRun
      obtain ⟨hFirst, hRest⟩ := List.forall_mem_cons.mp hKind
      have hHere := hGuard s e t hs hFirst hDefined
      have hTail (hNext : P t) := ih (hStep s e t hs hDefined hNext) hNext hRest hRun
      simp only [AllStates, AllSteps, hDefined, Option.some.injEq, forall_eq', hP, true_and]
      constructor
      · intro hAll
        have hNext : P t := by
          cases es with
          | nil => exact hAll
          | cons => exact hAll.1
        exact ⟨hHere.mpr hNext, (hTail hNext).mp hAll⟩
      · rintro ⟨hGuarded, hRest⟩
        have hNext := hHere.mp hGuarded
        exact (hTail hNext).mpr hRest

theorem allStates_iff_allSteps_of_run {guard : State → Event → Prop} (inv : State → Prop)
    {P : State → Prop} {s : State} {es : List Event}
    (hGuard : ∀ s e t, inv s → step s e = some t → (guard s e ↔ P t))
    (hStep : ∀ s e t, inv s → step s e = some t → P t → inv t)
    (hs : inv s) (hP : P s) (hRun : (run step s es).isSome) :
    AllStates step P s es ↔ AllSteps step guard s es :=
  have hEvery : ∀ e ∈ es, (fun _ : Event => True) e := fun _ _ => trivial
  allStates_iff_allSteps_of_events inv (fun s e t hInv _ => hGuard s e t hInv) hStep hs hP hEvery
    hRun

/-- In such a run, a guard on the events alone is one on all events. -/
theorem allSteps_iff_forall {kind : Event → Prop} {s : State} {es : List Event}
    (hRun : (run step s es).isSome) :
    AllSteps step (fun _ e => kind e) s es ↔ ∀ e ∈ es, kind e := by
  induction es generalizing s with
  | nil => exact ⟨fun _ => nofun, fun _ => trivial⟩
  | cons e es ih =>
      obtain ⟨t, hDefined⟩ : ∃ t, step s e = some t := by
        rw [run] at hRun
        exact Option.isSome_iff_exists.mp (Option.isSome_of_isSome_bind hRun)
      rw [run, hDefined, Option.bind_some] at hRun
      simp only [AllSteps, hDefined, Option.some.injEq, forall_eq', List.forall_mem_cons, ih hRun]

/-- A run is defined as a whole exactly when each step it attempts is. -/
theorem run_isSome_iff (s : State) (es : List Event) :
    (run step s es).isSome ↔ AllSteps step (fun s e => (step s e).isSome) s es := by
  induction es generalizing s with
  | nil => simp [run, AllSteps]
  | cons e es ih =>
      cases hStep : step s e with
      | none => simp [run, AllSteps, hStep]
      | some t => simp [run, AllSteps, hStep, ih t]

/-- The observations of a run, `none` when one of its steps is undefined. -/
def trace (observe : State → Event → Option (State × Output)) :
    State → List Event → Option (List Output)
  | _, [] => some []
  | s, e :: es => (observe s e).bind fun next =>
      (trace observe next.1 es).map (next.2 :: ·)

/-- The observations of a run of a total specification. -/
def specTrace (spec : Abstract → Event → Abstract × Output) : Abstract → List Event → List Output
  | _, [] => []
  | m, e :: es => (spec m e).2 :: specTrace spec (spec m e).1 es

/-- Simulation with an exact domain: guarded steps follow the specification,
and an unguarded step is undefined. Then the runs that show what the
specification shows are exactly the guarded ones. -/
theorem trace_eq_specTrace_iff {observe : State → Event → Option (State × Output)}
    {spec : Abstract → Event → Abstract × Output} {guard : State → Event → Prop}
    {related : State → Abstract → Prop}
    (hFollow : ∀ s m e, related s m → guard s e →
      ∃ t, observe s e = some (t, (spec m e).2) ∧ related t (spec m e).1)
    (hStuck : ∀ s m e, related s m → ¬ guard s e → observe s e = none)
    {s : State} {m : Abstract} (hRelated : related s m) (es : List Event) :
    trace observe s es = some (specTrace spec m es) ↔
      AllSteps (fun s e => (observe s e).map Prod.fst) guard s es := by
  induction es generalizing s m with
  | nil => simp [trace, specTrace, AllSteps]
  | cons e es ih =>
      by_cases hGuard : guard s e
      · obtain ⟨t, hObserve, hNext⟩ := hFollow s m e hRelated hGuard
        have hTail := ih hNext
        simp only [trace, specTrace, AllSteps, hObserve, Option.bind_some, Option.map_some,
          Option.some.injEq, hGuard, true_and, forall_eq']
        rw [← hTail]
        cases trace observe t es <;> simp
      · have hNone := hStuck s m e hRelated hGuard
        simp [trace, AllSteps, hNone, hGuard]

/-- A component of a system whose guarded steps are each a step of the component or
leave it alone. Its view of a run is the run of its own events. -/
theorem run_filterMap {Local LocalEvent : Type*} {localStep : Local → LocalEvent → Option Local}
    (view : State → Local) (label : Event → Option LocalEvent) {guard : State → Event → Prop}
    (inv : State → Prop) (hInv : ∀ s e t, inv s → step s e = some t → inv t)
    (hOwn : ∀ s e t own, inv s → guard s e → step s e = some t → label e = some own →
      localStep (view s) own = some (view t))
    (hOther : ∀ s e t, inv s → step s e = some t → label e = none → view t = view s)
    {s t : State} {es : List Event} (guarded : AllSteps step guard s es) (hs : inv s)
    (hRun : run step s es = some t) :
    run localStep (view s) (es.filterMap label) = some (view t) := by
  induction es generalizing s with
  | nil =>
      cases hRun
      rfl
  | cons e es ih =>
      obtain ⟨u, hu, ht⟩ := Option.bind_eq_some_iff.mp hRun
      have hRest := ih (guarded.2 u hu) (hInv s e u hs hu) ht
      cases hLabel : label e with
      | none =>
          rw [List.filterMap_cons_none hLabel, ← hOther s e u hs hu hLabel]
          exact hRest
      | some own =>
          rw [List.filterMap_cons_some hLabel, run, hOwn s e u own hs guarded.1 hu hLabel]
          exact hRest

/-- Events that are steps of another transition function, or none at all: a run of
them is a run of those steps, and as defined. -/
theorem run_eq_filterMap {Step : Type*} {inner : State → Step → Option State}
    (label : Event → Option Step) (inv : State → Prop) {kind : Event → Prop}
    (hInv : ∀ s e t, inv s → step s e = some t → inv t)
    (hLabel : ∀ s e, inv s → kind e → step s e = (label e).elim (some s) (inner s))
    {s : State} (hs : inv s) {es : List Event} (hKind : ∀ e ∈ es, kind e) :
    run step s es = run inner s (es.filterMap label) := by
  induction es generalizing s with
  | nil => rfl
  | cons e es ih =>
      have hHere := hLabel s e hs (hKind e (List.mem_cons_self ..))
      have hRest (t : State) (ht : step s e = some t) :
          run step t es = run inner t (es.filterMap label) :=
        ih (hInv s e t hs ht) fun e hMem => hKind e (List.mem_cons_of_mem _ hMem)
      cases hOwn : label e with
      | none =>
          rw [hOwn, Option.elim_none] at hHere
          rw [List.filterMap_cons_none hOwn, run, hHere, Option.bind_some, hRest s hHere]
      | some own =>
          rw [hOwn, Option.elim_some] at hHere
          rw [List.filterMap_cons_some hOwn, run, run, ← hHere]
          cases hStep : step s e with
          | none => rfl
          | some t => exact hRest t hStep

/-- A part of the state whose next value depends on nothing else makes a run of its
own, and as defined. -/
theorem run_view {View : Type*} {viewStep : View → Event → Option View} (view : State → View)
    (inv : State → Prop) (kind : Event → Prop) (hInv : ∀ s e t, inv s → step s e = some t → inv t)
    (hView : ∀ s e, inv s → kind e → (step s e).map view = viewStep (view s) e) {s : State}
    (hs : inv s) {es : List Event} (hKind : ∀ e ∈ es, kind e) :
    (run step s es).map view = run viewStep (view s) es := by
  induction es generalizing s with
  | nil => rfl
  | cons e es ih =>
      rw [run, run, ← hView s e hs (hKind e (List.mem_cons_self ..))]
      cases hStep : step s e with
      | none => rfl
      | some t => exact ih (hInv s e t hs hStep) fun e hMem => hKind e (List.mem_cons_of_mem _ hMem)

theorem run_map {Step : Type*} {inner : State → Step → Option State} (f : Event → Step) (s : State)
    (es : List Event) : run (fun s e => inner s (f e)) s es = run inner s (es.map f) := by
  induction es generalizing s with
  | nil => rfl
  | cons e es ih => exact congrArg (Option.bind _) (funext fun t => ih t)

/-- Steps that are runs of smaller ones. -/
theorem run_flatMap {Step : Type*} {inner : State → Step → Option State}
    (steps : Event → List Step) (s : State) (es : List Event) :
    run (fun s e => run inner s (steps e)) s es = run inner s (es.flatMap steps) := by
  induction es generalizing s with
  | nil => rfl
  | cons e es ih =>
      rw [List.flatMap_cons, run_append, run]
      congr
      funext t
      exact ih t

/-- When every state short of the end has a step to a lower rank, some run gets to
the end. -/
theorem exists_run_until (rank : State → Nat → Prop) {kind : Event → Prop} {done : State → Prop}
    (hStep : ∀ s n, rank s n → ¬ done s →
      ∃ e t k, kind e ∧ step s e = some t ∧ rank t k ∧ k < n)
    {s : State} {n : Nat} (hs : rank s n) :
    ∃ es t, (∀ e ∈ es, kind e) ∧ run step s es = some t ∧ done t := by
  induction n using Nat.strongRecOn generalizing s with
  | ind n ih =>
      by_cases hDone : done s
      · exact ⟨[], s, nofun, rfl, hDone⟩
      · obtain ⟨e, t, k, hKind, ht, hRank, hLess⟩ := hStep s n hs hDone
        obtain ⟨es, u, hKinds, hRun, hEnd⟩ := ih k hLess hRank
        refine ⟨e :: es, u, ?_, ?_, hEnd⟩
        · exact List.forall_mem_cons.mpr ⟨hKind, hKinds⟩
        · rw [run, ht, Option.bind_some, hRun]

/-- The run of a total function. -/
theorem run_total (next : State → Event → State) (s : State) (es : List Event) :
    run (fun s e => some (next s e)) s es = some (es.foldl next s) := by
  induction es generalizing s with
  | nil => rfl
  | cons e es ih => exact ih (next s e)

end Transition
