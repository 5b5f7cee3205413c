import ModalEdit.History

/-! The history on its own, together with the state that lies between what can be undone and what can be
redone. Only a push makes a checkpoint, and it forgets what can be redone; a step back or forth moves one
checkpoint from one side of the present to the other. So there are never more checkpoints than the history
has places for, and steps in one direction are taken back by as many in the other. -/
namespace ModalEdit

/-- A history, and the present state, which its steps leave and lead to. -/
structure Timeline where
  history : History
  now : Checkpoint
deriving DecidableEq, Repr

namespace Timeline

/-- What can be done to a history, and to the text and the cursor that it is the history of. -/
inductive Operation where
  | change (now : Checkpoint)
  | push (c : Checkpoint)
  | markOrigin (cursor : Nat)
  | beginRun (c : Checkpoint)
  | adoptRun
  | noteEdits (n : Nat)
  | endRun
  | undo
  | redo
deriving DecidableEq, Repr

def fresh (levels : Nat) (now : Checkpoint) : Timeline := ⟨.empty levels, now⟩

/-- One step back, if there is one. -/
def back? (x : Timeline) : Option Timeline := (x.history.undo? x.now).map fun (c, h) => ⟨h, c⟩

/-- One step forth, if there is one. -/
def forth? (x : Timeline) : Option Timeline := (x.history.redo? x.now).map fun (c, h) => ⟨h, c⟩

def perform (x : Timeline) : Operation → Timeline
  | .change now => { x with now }
  | .push c => { x with history := x.history.push c }
  | .markOrigin cursor => { x with history := x.history.markOrigin cursor }
  | .beginRun c => { x with history := x.history.beginRun c }
  | .adoptRun => { x with history := x.history.adoptRun }
  | .noteEdits n => { x with history := x.history.noteEdits n }
  | .endRun => { x with history := x.history.endRun }
  | .undo => x.back?.getD x
  | .redo => x.forth?.getD x

def run (x : Timeline) (ops : List Operation) : Timeline := ops.foldl perform x

/-- The checkpoint that an operation pushes. An insertion pushes one when it begins, with the cursor of
before the command that opened it. -/
def pushed? (x : Timeline) : Operation → Option Checkpoint
  | .push c => some c
  | .beginRun c =>
    match x.history.run with
    | .inactive => some ⟨c.text, min (x.history.origin?.getD c.cursor) c.text.length⟩
    | .active _ => none
  | _ => none

/-- The checkpoints that are pushed in the course of a run, oldest first. -/
def pushes (x : Timeline) : List Operation → List Checkpoint
  | [] => []
  | op :: rest => (x.pushed? op).toList ++ (x.perform op).pushes rest

/-- As many steps as the number says, if there are that many. -/
def many (step : Timeline → Option Timeline) : Nat → Timeline → Option Timeline
  | 0, x => some x
  | n + 1, x => (step x).bind (many step n)

/-! ### Steps -/

variable {x y : Timeline} {step back : Timeline → Option Timeline} {ahead : Timeline → List Checkpoint}

/-- The steps lead along the checkpoints that are ahead, from the nearest one on. -/
def Follows (step : Timeline → Option Timeline) (ahead : Timeline → List Checkpoint) : Prop :=
  ∀ x, match ahead x with
    | [] => step x = none
    | c :: rest => ∃ y, step x = some y ∧ y.now = c ∧ ahead y = rest

theorem back?_follows : Follows back? (·.history.undos) := by
  intro x
  obtain ⟨⟨capacity, undos, redos, run, origin?⟩, now⟩ := x
  cases undos with
  | nil => rfl
  | cons c rest => exact ⟨_, rfl, rfl, rfl⟩

theorem forth?_follows : Follows forth? (·.history.redos) := by
  intro x
  obtain ⟨⟨capacity, undos, redos, run, origin?⟩, now⟩ := x
  cases redos with
  | nil => rfl
  | cons c rest => exact ⟨_, rfl, rfl, rfl⟩

theorem forth?_of_back? (stepped : x.back? = some y) : y.forth? = some x := by
  obtain ⟨⟨c, after⟩, undone, rfl⟩ := Option.map_eq_some_iff.mp stepped
  simp only [forth?, History.redo?_of_undo? undone, Option.map_some]

theorem back?_of_forth? (stepped : x.forth? = some y) : y.back? = some x := by
  obtain ⟨⟨c, after⟩, redone, rfl⟩ := Option.map_eq_some_iff.mp stepped
  simp only [back?, History.undo?_of_redo? redone, Option.map_some]

theorem many_succ (step : Timeline → Option Timeline) (n : Nat) (x : Timeline) :
    many step (n + 1) x = (many step n x).bind step := by
  induction n generalizing x with
  | zero => exact Option.bind_fun_some (step x)
  | succ n ih =>
    rw [many]
    cases stepped : step x with
    | none => simp [many, stepped]
    | some y =>
      simp only [Option.bind_some, many, stepped]
      exact ih y

/-- If each step can be taken back, so can any number of them. -/
theorem many_of_many (inverse : ∀ x y, step x = some y → back y = some x)
    (stepped : many step n x = some y) : many back n y = some x := by
  induction n generalizing x with
  | zero => exact stepped.symm
  | succ n ih =>
    obtain ⟨z, first, rest⟩ := Option.bind_eq_some_iff.mp stepped
    rw [many_succ, ih rest]
    exact inverse x z first

/-- The checkpoint to which the last of the steps leads. -/
theorem many_now (follows : Follows step ahead) (n : Nat) (x : Timeline) :
    (many step (n + 1) x).map (·.now) = (ahead x)[n]? := by
  induction n generalizing x with
  | zero =>
    have one := follows x
    split at one
    · rename_i nothing
      simp [many, one, nothing]
    · rename_i c rest there
      obtain ⟨y, stepped, now, _⟩ := one
      simp [many, stepped, there, now]
  | succ n ih =>
    have one := follows x
    split at one
    · rename_i nothing
      simp [many, one, nothing]
    · rename_i c rest there
      obtain ⟨y, stepped, _, left⟩ := one
      rw [many, stepped, Option.bind_some, ih y, left, there, List.getElem?_cons_succ]

/-- Any number of steps that there are can be taken, and taken back. -/
theorem many_restores (follows : Follows step ahead)
    (inverse : ∀ x y, step x = some y → back y = some x) (h : n ≤ (ahead x).length) :
    (many step n x).bind (many back n) = some x := by
  obtain ⟨y, stepped⟩ : ∃ y, many step n x = some y := by
    cases n with
    | zero => exact ⟨x, rfl⟩
    | succ n =>
      have lands := many_now follows n x
      rw [List.getElem?_eq_getElem h] at lands
      obtain ⟨y, stepped, _⟩ := Option.map_eq_some_iff.mp lands
      exact ⟨y, stepped⟩
  rw [stepped]
  exact many_of_many inverse stepped

/-! ### What an operation does -/

/-- An operation pushes a checkpoint, or it takes a step, or the checkpoints stay as they are. -/
inductive Effect (x y : Timeline) (op : Operation) : Prop where
  | pushed (c : Checkpoint) (pushes : x.pushed? op = some c)
      (undos : y.history.undos = (c :: x.history.undos).take x.history.capacity)
      (redos : y.history.redos = [])
  | kept (pushes : x.pushed? op = none) (undos : y.history.undos = x.history.undos)
      (redos : y.history.redos = x.history.redos)
  | back (undoes : op = .undo) (stepped : x.back? = some y)
  | forth (redoes : op = .redo) (stepped : x.forth? = some y)

theorem perform_effect (x : Timeline) (op : Operation) : Effect x (x.perform op) op := by
  cases op with
  | change | noteEdits | adoptRun | markOrigin | endRun =>
    obtain ⟨⟨capacity, undos, redos, run, origin?⟩, now⟩ := x
    cases run <;> exact .kept rfl rfl rfl
  | push c => exact .pushed c rfl rfl rfl
  | beginRun c =>
    obtain ⟨⟨capacity, undos, redos, run, origin?⟩, now⟩ := x
    cases run with
    | inactive => exact .pushed _ rfl rfl rfl
    | active edits => exact .kept rfl rfl rfl
  | undo =>
    cases stepped : x.back? with
    | none => exact .kept rfl (by simp [perform, stepped]) (by simp [perform, stepped])
    | some y => exact .back rfl (by simp [perform, stepped])
  | redo =>
    cases stepped : x.forth? with
    | none => exact .kept rfl (by simp [perform, stepped]) (by simp [perform, stepped])
    | some y => exact .forth rfl (by simp [perform, stepped])

theorem back?_capacity (stepped : x.back? = some y) :
    y.history.capacity = x.history.capacity ∧
      y.history.undos.length + y.history.redos.length =
        x.history.undos.length + x.history.redos.length := by
  obtain ⟨⟨capacity, undos, redos, run, origin?⟩, now⟩ := x
  cases undos with
  | nil => cases stepped
  | cons c rest =>
    cases stepped
    refine ⟨rfl, ?_⟩
    simp only [List.length_cons]
    omega

theorem perform_capacity (x : Timeline) (op : Operation) :
    (x.perform op).history.capacity = x.history.capacity := by
  cases op with
  | undo =>
    simp only [perform]
    cases stepped : x.back? with
    | none => rfl
    | some y => exact (back?_capacity stepped).1
  | redo =>
    simp only [perform]
    cases stepped : x.forth? with
    | none => rfl
    | some y => exact (back?_capacity (back?_of_forth? stepped)).1.symm
  | _ =>
    obtain ⟨⟨capacity, undos, redos, run, origin?⟩, now⟩ := x
    cases run <;> rfl

/-! ### Runs -/

/-- There is a place for each checkpoint. -/
def Bounded (x : Timeline) : Prop :=
  x.history.undos.length + x.history.redos.length ≤ x.history.capacity

theorem Bounded.perform (bounded : x.Bounded) (op : Operation) : (x.perform op).Bounded := by
  unfold Bounded at bounded ⊢
  rw [perform_capacity]
  cases x.perform_effect op with
  | pushed c _ undos redos =>
    rw [undos, redos]
    exact List.length_take_le _ _
  | kept _ undos redos =>
    rw [undos, redos]
    exact bounded
  | back _ stepped =>
    rw [(back?_capacity stepped).2]
    exact bounded
  | forth _ stepped =>
    rw [← (back?_capacity (back?_of_forth? stepped)).2]
    exact bounded

theorem run_cons (x : Timeline) (op : Operation) (rest : List Operation) :
    x.run (op :: rest) = (x.perform op).run rest := rfl

theorem Bounded.run (bounded : x.Bounded) (ops : List Operation) : (x.run ops).Bounded := by
  induction ops generalizing x with
  | nil => exact bounded
  | cons op rest ih => exact ih (bounded.perform op)

theorem run_capacity (x : Timeline) (ops : List Operation) :
    (x.run ops).history.capacity = x.history.capacity := by
  induction ops generalizing x with
  | nil => rfl
  | cons op rest ih => exact (ih _).trans (x.perform_capacity op)

/-- What is cut to its front part may be cut before something is put ahead of it. -/
theorem take_append_take {α : Type} (n : Nat) (first last : List α) :
    (first ++ last.take n).take n = (first ++ last).take n := by
  rw [List.take_append, List.take_append, List.take_take, Nat.min_eq_left (Nat.sub_le _ _)]

/-- As long as nothing is undone, what can be undone is what was pushed last. -/
theorem run_undos (bounded : x.Bounded) (nothing : x.history.redos = []) {ops : List Operation}
    (onward : .undo ∉ ops) :
    (x.run ops).history.undos =
      ((x.pushes ops).reverse ++ x.history.undos).take x.history.capacity := by
  induction ops generalizing x with
  | nil =>
    refine (List.take_of_length_le ?_).symm
    exact Nat.le_trans (Nat.le_add_right _ _) bounded
  | cons op rest ih =>
    obtain ⟨first, later⟩ := List.ne_and_not_mem_of_not_mem_cons onward
    have next := ih (x := x.perform op) (bounded.perform op)
    rw [perform_capacity] at next
    rw [run_cons, pushes, List.reverse_append, List.append_assoc]
    cases x.perform_effect op with
    | pushed c pushes undos redos =>
      rw [next redos later, undos, pushes, take_append_take]
      rfl
    | kept pushes undos redos =>
      rw [next (redos.trans nothing) later, undos, pushes]
      rfl
    | back undoes => exact absurd undoes.symm first
    | forth _ stepped =>
      have stuck := forth?_follows x
      simp only [nothing] at stuck
      cases stuck.symm.trans stepped

/-- Whatever is done to a history and to the text, it never holds more checkpoints than it has places for,
of which there is at least one. Steps back are undone by as many steps forth, and the other way round, in
the text, the cursor and all of the history. After a run in which nothing is undone, the steps back lead
to the checkpoints that were pushed last, as many as there are places, from the newest on, and to no
others. -/
theorem bounded_and_reversible (levels : Nat) (start : Checkpoint) (ops : List Operation) :
    let x := (fresh levels start).run ops
    let pushed := (fresh levels start).pushes ops
    x.history.undos.length + x.history.redos.length ≤ max levels 1 ∧
      (∀ k ≤ x.history.undos.length, (many back? k x).bind (many forth? k) = some x) ∧
      (∀ k ≤ x.history.redos.length, (many forth? k x).bind (many back? k) = some x) ∧
      (.undo ∉ ops → ∀ n, (many back? (n + 1) x).map (·.now) =
        (pushed.reverse.take (min pushed.length (max levels 1)))[n]?) := by
  intro x pushed
  have bounded : (fresh levels start).Bounded := Nat.zero_le _
  have capacity : x.history.capacity = max levels 1 := run_capacity _ ops
  refine ⟨?_, ?_, ?_, ?_⟩
  · rw [← capacity]
    exact bounded.run ops
  · intro k h
    exact many_restores back?_follows (fun _ _ => forth?_of_back?) h
  · intro k h
    exact many_restores forth?_follows (fun _ _ => back?_of_forth?) h
  · intro onward n
    have undos : x.history.undos = (pushed.reverse ++ []).take (max levels 1) :=
      run_undos bounded rfl onward
    rw [List.append_nil] at undos
    rw [many_now back?_follows, undos, ← List.length_reverse, Nat.min_comm, ← List.take_take,
      List.take_length]

/-- Of three checkpoints, of which an insertion makes the last, there are places for two. -/
theorem two_of_three_checkpoints :
    let start : Checkpoint := ⟨[], 0⟩
    let first : Checkpoint := ⟨['a'], 1⟩
    let second : Checkpoint := ⟨['a', 'b'], 2⟩
    let x := (fresh 2 start).run [.push start, .change first, .push first, .change second,
      .markOrigin 1, .beginRun second, .noteEdits 1, .change ⟨['a', 'b', 'c'], 3⟩]
    (many back? 2 x).bind (many forth? 2) = some x ∧
      (many back? 1 x).map (·.now) = some ⟨['a', 'b'], 1⟩ ∧
      (many back? 2 x).map (·.now) = some first ∧ many back? 3 x = none := by
  intro start first second x
  obtain ⟨_, there, _, visits⟩ := bounded_and_reversible 2 start [.push start, .change first,
    .push first, .change second, .markOrigin 1, .beginRun second, .noteEdits 1,
    .change ⟨['a', 'b', 'c'], 3⟩]
  have onward := visits (by decide)
  refine ⟨there 2 (by decide), onward 0, onward 1, ?_⟩
  exact Option.map_eq_none_iff.mp (onward 2)

/-- A history that is made without places has one all the same. -/
theorem one_checkpoint_without_places :
    let start : Checkpoint := ⟨['a'], 0⟩
    let ops : List Operation := [.push start, .change ⟨['a', 'b'], 0⟩]
    let pushed := (fresh 0 start).pushes ops
    .undo ∉ ops ∧ (many back? 1 ((fresh 0 start).run ops)).map (·.now) = some start ∧
      ¬ ∀ n, (many back? (n + 1) ((fresh 0 start).run ops)).map (·.now) =
        (pushed.reverse.take (min pushed.length 0))[n]? := by
  intro start ops pushed
  refine ⟨by decide, by decide, ?_⟩
  intro none_visited
  exact absurd (none_visited 0) (by decide)

end Timeline

end ModalEdit
