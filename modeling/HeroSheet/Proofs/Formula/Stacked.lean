import HeroSheet.Proofs.Formula.Height

/-!
Evaluating with room for some calls only. Evaluation calls itself for the parts of a tree, so calls are open inside of
each other; where one more is made than there is room for, there is neither a value nor a fault. A tree needs room for
two calls at each of its levels. The limits of reading keep the trees of tokens low, so that all of them have enough
room where few calls may be open.
-/

namespace HeroSheet

namespace Formula

/-- What is computed by calls, with room for so many that are open at once: a value or a fault, or nothing, where the
room is not enough. -/
abbrev Stacked := ReaderT Nat (ExceptT Fault Option)

namespace Stacked

variable {α β : Type}

/-- What takes no calls. -/
def of (outcome : Except Fault α) : Stacked α := fun _ => some outcome

/-- A call, which takes room while it is open. -/
def called (computation : Stacked α) : Stacked α
  | 0 => none
  | room + 1 => computation room

/-- A node is evaluated by a call, which looks whether the value is finite; another call computes the value. -/
def node (computed : Stacked Binary64) : Stacked Binary64 :=
  called do .of (finiteOnly (← called computed))

/-- A call that chooses from values, and inside of it one that goes through them. -/
def chosen (choose : Binary64 → List Binary64 → Binary64) (values : Stacked (List Binary64)) : Stacked Binary64 :=
  called do
    .of <| match ← called values with
      | [] => .error .illFormed
      | first :: others => .ok (choose first others)

end Stacked

open Stacked

mutual

/-- The value of a tree, by the calls that evaluate its nodes. -/
def Expr.valueWithin : Expr → Stacked Binary64
  | .number v => node (return v)
  | .neg operand => node do return -(← operand.valueWithin)
  | .binary .div left right => node do
    let divisor ← right.valueWithin
    if divisor.isZero then .of (.error (.nowhere .divisionByZero))
    else return (← left.valueWithin) / divisor
  | .binary op left right => node do
    let a ← left.valueWithin
    let b ← right.valueWithin
    return op.apply a b
  | .call .max args => node (chosen greatest (valuesWithin args))
  | .call .min args => node (chosen least (valuesWithin args))
  | .call f [arg] => node do
    .of <| match f.roundTo? (← arg.valueWithin) with
      | some n => .ok (.ofInt n)
      | none => .error (.nowhere .resultOutOfRange)
  | .call f args => node (.of (.error (.nowhere (.cannotEvaluate (.call f args)))))

/-- The values of trees, in order, by the calls that evaluate each of them. -/
def valuesWithin : List Expr → Stacked (List Binary64)
  | [] => return []
  | e :: es => do
    let v ← e.valueWithin
    let vs ← valuesWithin es
    return v :: vs

end

namespace Stacked

/-- What comes after a value finds the room that was there before it. -/
theorem bind_apply {α β : Type} (computation : Stacked α) (next : α → Stacked β) (room : Nat) :
    (computation >>= next) room =
      match computation room with
      | none => none
      | some (.error fault) => some (.error fault)
      | some (.ok a) => next a room := by
  change ExceptT.bindCont (fun a => next a room) =<< computation room = _
  cases computation room with
  | none => rfl
  | some outcome => cases outcome <;> rfl

theorem node_eq_none {computed : Stacked Binary64} {room : Nat} (exhausted : computed room = none) :
    node computed (room + 2) = none := by
  rw [node, called, bind_apply, called, exhausted]

section Enough

variable {α β : Type} {calls more : Nat} {computation : Stacked α} {outcome : Except Fault α}

/-- Room for so many calls is enough for the computation to come to the outcome. -/
def Enough (calls : Nat) (computation : Stacked α) (outcome : Except Fault α) : Prop :=
  ∀ room, calls ≤ room → computation room = some outcome

theorem enough_of (calls : Nat) (outcome : Except Fault α) : Enough calls (.of outcome) outcome :=
  fun _ _ => rfl

theorem enough_return (calls : Nat) (a : α) : Enough calls (return a) (.ok a) :=
  fun _ _ => rfl

theorem Enough.mono (enough : Enough calls computation outcome) (fewer : calls ≤ more) :
    Enough more computation outcome :=
  fun room bound => enough room (Nat.le_trans fewer bound)

theorem Enough.called (enough : Enough calls computation outcome) :
    Enough (calls + 1) (.called computation) outcome := by
  intro room bound
  obtain ⟨less, rfl⟩ : ∃ less, room = less + 1 := ⟨room - 1, by omega⟩
  exact enough less (Nat.le_of_succ_le_succ bound)

theorem Enough.bind {next : α → Stacked β} {nextOutcome : α → Except Fault β} (first : Enough calls computation outcome)
    (others : ∀ a, Enough calls (next a) (nextOutcome a)) :
    Enough calls (computation >>= next) (outcome >>= nextOutcome) := by
  intro room bound
  rw [bind_apply, first room bound]
  cases outcome with
  | error fault => rfl
  | ok a => exact others a room bound

private theorem Enough.ite {other : Stacked α} {otherOutcome : Except Fault α}
    (enough : Enough calls computation outcome)
    (others : Enough calls other otherOutcome) (condition : Bool) :
    Enough calls (if condition then computation else other) (if condition then outcome else otherOutcome) := by
  cases condition with
  | true => exact enough
  | false => exact others

theorem Enough.node {computed : Stacked Binary64} {outcome value : Except Fault Binary64}
    (enough : Enough calls computed outcome) (same : (outcome >>= finiteOnly) = value) :
    Enough (calls + 2) (.node computed) value := by
  subst same
  exact (enough.called.bind fun v => enough_of (calls + 1) (finiteOnly v)).called

theorem Enough.chosen {values : Stacked (List Binary64)} {outcome : Except Fault (List Binary64)}
    (enough : Enough calls values outcome) (choose : Binary64 → List Binary64 → Binary64) :
    Enough (calls + 2) (.chosen choose values)
      (outcome >>= fun
        | [] => .error .illFormed
        | first :: others => .ok (choose first others)) :=
  (enough.called.bind fun _ => enough_of (calls + 1) _).called

end Enough

section Needs

variable {α β : Type} {calls more : Nat} {computation : Stacked α}

/-- No value is computed without room for so many calls. -/
def Needs (calls : Nat) (computation : Stacked α) : Prop :=
  ∀ room a, computation room = some (.ok a) → calls ≤ room

theorem needs_zero (computation : Stacked α) : Needs 0 computation :=
  fun room _ _ => Nat.zero_le room

theorem needs_of_error (calls : Nat) (fault : Fault) : Needs calls (.of (.error fault) : Stacked α) := by
  intro room a computed
  cases computed

theorem Needs.called (needs : Needs calls computation) : Needs (calls + 1) (.called computation) := by
  intro room a computed
  cases room with
  | zero => cases computed
  | succ room => exact Nat.succ_le_succ (needs room a computed)

/-- Computations one after the other need the room of the one that needs more. -/
theorem Needs.bind {next : α → Stacked β} (first : Needs calls computation) (others : ∀ a, Needs more (next a)) :
    Needs (max calls more) (computation >>= next) := by
  intro room b computed
  rw [bind_apply] at computed
  split at computed
  · cases computed
  · cases computed
  · rename_i a here
    exact Nat.max_le.mpr ⟨first room a here, others a room b computed⟩

theorem Needs.behind {next : α → Stacked β} (needs : Needs calls computation) : Needs calls (computation >>= next) := by
  have both := needs.bind fun a => needs_zero (next a)
  rwa [Nat.max_zero] at both

theorem Needs.node {computed : Stacked Binary64} (needs : Needs calls computed) : Needs (calls + 2) (.node computed) :=
  needs.called.behind.called

theorem Needs.chosen {values : Stacked (List Binary64)} (needs : Needs calls values)
    (choose : Binary64 → List Binary64 → Binary64) : Needs (calls + 2) (.chosen choose values) :=
  needs.called.behind.called

end Needs

end Stacked

section Trees

variable {calls : Nat} {left right operand : Expr} {args : List Expr}

private theorem enough_neg (inside : Enough calls operand.valueWithin operand.value) :
    Enough (calls + 2) (Expr.neg operand).valueWithin (Expr.neg operand).value := by
  rw [Expr.valueWithin, Expr.value]
  refine (inside.bind fun v => enough_return calls (-v)).node ?_
  rw [bind_assoc]
  rfl

private theorem enough_binary (op : Operator) (before : Enough calls left.valueWithin left.value)
    (behind : Enough calls right.valueWithin right.value) :
    Enough (calls + 2) (Expr.binary op left right).valueWithin (Expr.binary op left right).value := by
  cases op with
  | div =>
    -- the divisor comes first, and the dividend only if that is not zero
    rw [Expr.valueWithin, Expr.value]
    have dividing (divisor : Binary64) := before.bind fun a => enough_return calls (a / divisor)
    refine (behind.bind fun divisor => (enough_of calls _).ite (dividing divisor) divisor.isZero).node ?_
    rw [bind_assoc]
    congr 1
    funext divisor
    split
    · rfl
    · rw [bind_assoc]
      rfl
  | add | sub | mul =>
    simp only [Expr.valueWithin, Expr.value]
    refine (before.bind fun a => behind.bind fun b => enough_return calls _).node ?_
    simp only [bind_assoc]
    rfl

private theorem enough_values (inside : ∀ arg ∈ args, Enough calls arg.valueWithin arg.value) :
    Enough calls (valuesWithin args) (valuesOf args) := by
  induction args with
  | nil =>
    rw [valuesWithin, valuesOf]
    exact enough_return _ []
  | cons arg args ih =>
    obtain ⟨first, others⟩ := List.forall_mem_cons.mp inside
    rw [valuesWithin, valuesOf]
    exact first.bind fun v => (ih others).bind fun vs => enough_return _ (v :: vs)

private theorem enough_call (f : Function) (inside : ∀ arg ∈ args, Enough calls arg.valueWithin arg.value) :
    Enough (calls + f.calls) (Expr.call f args).valueWithin (Expr.call f args).value := by
  cases f with
  | max | min =>
    rw [Expr.valueWithin, Expr.value]
    refine ((enough_values inside).chosen _).node ?_
    rw [bind_assoc]
    congr 1
    funext vs
    cases vs <;> rfl
  | floor | ceil | round =>
    match args with
    | [] =>
      simp only [Expr.valueWithin, Expr.value]
      exact (enough_of calls _).node rfl
    | [arg] =>
      have inner := inside arg List.mem_cons_self
      simp only [Expr.valueWithin, Expr.value]
      refine (inner.bind fun _ => enough_of calls _).node ?_
      rw [bind_assoc]
      congr 1
      funext v
      -- the integer is hidden, or unfolding would compute with it
      generalize Function.roundTo? _ v = found
      cases found with
      | none => rfl
      | some n => exact pure_bind (Binary64.ofInt n) finiteOnly
    | first :: second :: others =>
      simp only [Expr.valueWithin, Expr.value]
      exact (enough_of calls _).node rfl

end Trees

mutual

/-- Evaluating a tree has the outcome that it has without limits, where there is room for its calls. -/
theorem enough_valueWithin : ∀ e : Expr, Enough e.calls e.valueWithin e.value
  | .number v => by
    rw [Expr.calls, Expr.valueWithin, Expr.value]
    exact (enough_return 0 v).node rfl
  | .neg operand => by
    rw [Expr.calls]
    exact enough_neg (enough_valueWithin operand)
  | .binary op left right => by
    rw [Expr.calls]
    exact enough_binary op ((enough_valueWithin left).mono (Nat.le_max_left _ _))
      ((enough_valueWithin right).mono (Nat.le_max_right _ _))
  | .call f args => by
    rw [Expr.calls]
    exact enough_call f (enough_valueWithin_of_mem args)

theorem enough_valueWithin_of_mem : ∀ es : List Expr, ∀ e ∈ es, Enough (callsOf es) e.valueWithin e.value
  | [] => by simp
  | e :: es => by
    rw [callsOf]
    refine List.forall_mem_cons.mpr ⟨(enough_valueWithin e).mono (Nat.le_max_left _ _), fun own member => ?_⟩
    exact (enough_valueWithin_of_mem es own member).mono (Nat.le_max_right _ _)

end

section Levels

variable {calls more : Nat} {left right : Expr} {args : List Expr}

private theorem needs_binary (op : Operator) (before : Needs calls left.valueWithin)
    (behind : Needs more right.valueWithin) :
    Needs (max calls more + 2) (Expr.binary op left right).valueWithin := by
  cases op with
  | div =>
    rw [Expr.valueWithin, Nat.max_comm]
    refine (behind.bind fun divisor => ?_).node
    split
    · exact needs_of_error calls _
    · exact before.behind
  | add | sub | mul =>
    simp only [Expr.valueWithin]
    exact (before.bind fun a => behind.behind).node

/-- The values of one tree are computed with the room that its value needs. -/
private theorem needs_of_needs_singleton {arg : Expr} (needs : Needs calls (valuesWithin [arg])) :
    Needs calls arg.valueWithin := by
  intro room a computed
  have listed : valuesWithin [arg] room = some (.ok [a]) := by
    rw [valuesWithin, valuesWithin, bind_apply, computed]
    rfl
  exact needs room [a] listed

private theorem needs_call (f : Function) (needs : Needs calls (valuesWithin args)) :
    Needs (calls + 2) (Expr.call f args).valueWithin := by
  cases f with
  | max | min =>
    rw [Expr.valueWithin]
    intro room x computed
    have enough := (needs.chosen _).node room x computed
    omega
  | floor | ceil | round =>
    match args with
    | [] =>
      simp only [Expr.valueWithin]
      exact (needs_of_error calls _).node
    | [arg] =>
      simp only [Expr.valueWithin]
      exact (needs_of_needs_singleton needs).behind.node
    | first :: second :: others =>
      simp only [Expr.valueWithin]
      exact (needs_of_error calls _).node

mutual

/-- A tree has no value without room for two calls at each of its levels. -/
theorem needs_valueWithin : ∀ e : Expr, Needs (2 * e.height) e.valueWithin
  | .number v => by
    rw [Expr.valueWithin]
    exact (needs_zero _).node
  | .neg operand => by
    rw [Expr.height, Nat.mul_succ, Expr.valueWithin]
    exact (needs_valueWithin operand).behind.node
  | .binary op left right => by
    rw [Expr.height, Nat.mul_succ, ← Nat.mul_max_mul_left]
    exact needs_binary op (needs_valueWithin left) (needs_valueWithin right)
  | .call f args => by
    rw [Expr.height, Nat.mul_succ]
    exact needs_call f (needs_valuesWithin args)

theorem needs_valuesWithin : ∀ es : List Expr, Needs (2 * heightOf es) (valuesWithin es)
  | [] => needs_zero _
  | e :: es => by
    rw [heightOf, valuesWithin, ← Nat.mul_max_mul_left]
    exact (needs_valueWithin e).bind fun v => (needs_valuesWithin es).behind

end

end Levels

section Exhausted

private theorem valueWithin_negatedOne (minuses : Nat) :
    (Expr.negatedOne minuses).valueWithin (2 * minuses + 1) = none := by
  induction minuses with
  | zero => rfl
  | succ minuses ih =>
    rw [Expr.negatedOne, Expr.valueWithin, Nat.mul_succ, Nat.add_right_comm]
    refine node_eq_none ?_
    rw [bind_apply, ih]

private theorem valueWithin_plusOnes (ones : Nat) {e : Expr} {room : Nat} (exhausted : e.valueWithin room = none) :
    (e.plusOnes ones).valueWithin (room + 2 * ones) = none := by
  induction ones generalizing e room with
  | zero => exact exhausted
  | succ ones ih =>
    have sum : (Expr.binary .add e .one).valueWithin (room + 2) = none := by
      simp only [Expr.valueWithin]
      refine node_eq_none ?_
      rw [bind_apply, exhausted]
    have more := ih sum
    rwa [Nat.add_assoc, Nat.add_comm 2, ← Nat.mul_succ] at more

/-- The highest trees exhaust the room, if it is less by one than what is enough for all trees of as many tokens. -/
private theorem valueWithin_highest (ones : Nat) :
    (highest ones).valueWithin ((highestTokens ones).length + maxDepth - 1) = none := by
  have room : (highestTokens ones).length + maxDepth - 1 = 2 * (maxDepth - 1) + 1 + 2 * ones := by
    have nested : maxDepth = 32 := rfl
    rw [length_highestTokens]
    omega
  rw [room]
  exact valueWithin_plusOnes ones (valueWithin_negatedOne (maxDepth - 1))

end Exhausted

/-- So many calls may be open at once where no other limit is set. -/
def callLimit : Nat := 1000

/-- The tree of some tokens is at most half as high as there are tokens and levels of nesting together, so never
higher than 144. Evaluating it takes room for two calls at each level, and room for one call for each token and level
of nesting is enough, which is less than a third of the room that there is where no other limit is set. -/
theorem height_le_of_parse {tokens : List Token} {e : Expr} (parsed : parse tokens = .ok e) :
    e.height ≤ (tokens.length + 32) / 2 ∧ e.height ≤ 144 ∧
      (∀ room x, e.valueWithin room = some (.ok x) → 2 * e.height ≤ room) ∧
        (∀ room, tokens.length + 32 ≤ room → e.valueWithin room = some e.value) ∧
          3 * (tokens.length + 32) < callLimit := by
  have few : tokens.length ≤ 256 := (parse_eq_ok_iff_reads.mp parsed).1
  have calls : e.calls ≤ tokens.length + 32 := calls_le_of_parse parsed
  have levels := two_mul_height_le_calls e
  have limit : callLimit = 1000 := rfl
  refine ⟨by omega, by omega, needs_valueWithin e, fun room enough => ?_, by omega⟩
  exact enough_valueWithin e room (Nat.le_trans calls enough)

/-- As many tokens as may be read have a tree of 144 levels, which is evaluated with room for 288 calls and not with
room for one call less. -/
theorem height_le_of_parse_highest :
    parse (highestTokens 112) = .ok (highest 112) ∧ (highestTokens 112).length = 256 ∧
      (highest 112).height = 144 ∧ 144 ≤ (256 + 32) / 2 ∧
        (∀ room x, (highest 112).valueWithin room = some (.ok x) → 2 * 144 ≤ room) ∧
          (highest 112).valueWithin 288 = some (highest 112).value ∧ (highest 112).valueWithin 287 = none := by
  have length : (highestTokens 112).length = 256 := length_highestTokens 112
  have few : (highestTokens 112).length ≤ maxTokens := Nat.le_of_eq length
  obtain ⟨parsed, height⟩ := parse_highestTokens few
  rw [length] at height
  obtain ⟨bounded, _, needs, evaluates, _⟩ := height_le_of_parse parsed
  rw [length] at bounded evaluates
  rw [height] at bounded needs
  have exhausted := valueWithin_highest 112
  rw [length] at exhausted
  exact ⟨parsed, length, height, bounded, needs, evaluates 288 (Nat.le_refl 288), exhausted⟩

end Formula

end HeroSheet
