import HeroSheet.Dice.Roll
import HeroSheet.Proofs.Dice.Fallen
import HeroSheet.Proofs.Dice.ReadSum

namespace HeroSheet.Dice

variable {state : Advantage} {faces : Faces} {before count : Nat}

/-- The pools of an expression from left to right. -/
def Expr.pools : Expr Pool → List Pool
  | .literal _ => []
  | .dice pool => [pool]
  | .group inner => inner.pools
  | .annotated inner _ => inner.pools
  | .signed _ operand => operand.pools
  | .binary _ left right => left.pools ++ right.pools

/-- The dice of pools that are rolled one after the other, behind so many other dice. -/
def rollAll (faces : Faces) : Nat → List Pool → List Handful
  | _, [] => []
  | before, pool :: pools =>
    ⟨pool.sides, pool.choose ((List.range pool.count).map fun place => faces (before + place) pool.sides)⟩ ::
      rollAll faces (before + pool.count) pools

def diceCount (pools : List Pool) : Nat := (pools.map Pool.count).sum

section Rolls

private theorem diceCount_append (first second : List Pool) :
    diceCount (first ++ second) = diceCount first + diceCount second := by
  rw [diceCount, List.map_append, List.sum_append]
  rfl

private theorem rollAll_append (faces : Faces) (before : Nat) (first second : List Pool) :
    rollAll faces before (first ++ second) =
      rollAll faces before first ++ rollAll faces (before + diceCount first) second := by
  induction first generalizing before with
  | nil => rfl
  | cons pool first ih =>
    have total : before + diceCount (pool :: first) = before + pool.count + diceCount first := by
      rw [diceCount, List.map_cons, List.sum_cons, Nat.add_assoc]
      rfl
    rw [total, List.cons_append, rollAll, ih]
    rfl

private theorem handful_of_roll {pool : Pool} {rolled : RolledPool}
    (done : pool.roll faces before = .ok (rolled, count)) :
    [rolled.handful] = rollAll faces before [pool] ∧ count = before + diceCount [pool] := by
  have alone : diceCount [pool] = pool.count := Nat.add_zero _
  rw [alone]
  unfold Pool.roll at done
  split at done
  · rename_i none
    obtain ⟨rfl, rfl⟩ := Prod.mk.inj (Except.ok.inj done)
    rw [rollAll, none]
    exact ⟨rfl, rfl⟩
  · split at done
    · cases done
    · split at done
      · cases done
      · obtain ⟨rfl, rfl⟩ := Prod.mk.inj (Except.ok.inj done)
        exact ⟨rfl, rfl⟩

theorem handfuls_other_pair (left right : Node) :
    (Node.other [left, right]).handfuls = left.handfuls ++ right.handfuls := by
  rw [Node.handfuls, Node.allHandfuls, Node.allHandfuls, Node.allHandfuls, List.append_nil]

theorem handfuls_other_single (inner : Node) : (Node.other [inner]).handfuls = inner.handfuls := by
  rw [Node.handfuls, Node.allHandfuls, Node.allHandfuls, List.append_nil]

private theorem handfuls_of_roll {e : Expr Pool} {rolled : Expr RolledPool}
    (done : e.roll faces before = .ok (rolled, count)) :
    rolled.node.handfuls = rollAll faces before e.pools ∧ count = before + diceCount e.pools := by
  induction e generalizing before rolled count with
  | literal value =>
    obtain ⟨rfl, rfl⟩ := Prod.mk.inj (Except.ok.inj done)
    exact ⟨rfl, rfl⟩
  | dice pool =>
    obtain ⟨⟨inside, own⟩, first, same⟩ := map_eq_ok_iff.mp done
    obtain ⟨rfl, rfl⟩ := Prod.mk.inj same
    exact handful_of_roll first
  | group inner ih =>
    obtain ⟨⟨inside, own⟩, first, same⟩ := map_eq_ok_iff.mp done
    obtain ⟨rfl, rfl⟩ := Prod.mk.inj same
    exact ⟨(handfuls_other_single _).trans (ih first).1, (ih first).2⟩
  | annotated inner notes ih =>
    obtain ⟨⟨inside, own⟩, first, same⟩ := map_eq_ok_iff.mp done
    obtain ⟨rfl, rfl⟩ := Prod.mk.inj same
    -- Notes are passed over in the tree, so what is known of the inner expression is stated before it is used.
    have unannotated := ih first
    exact unannotated
  | signed negative operand ih =>
    obtain ⟨⟨inside, own⟩, first, same⟩ := map_eq_ok_iff.mp done
    obtain ⟨rfl, rfl⟩ := Prod.mk.inj same
    exact ⟨(handfuls_other_single _).trans (ih first).1, (ih first).2⟩
  | binary op left right firsts seconds =>
    obtain ⟨⟨one, middle⟩, first, done⟩ := bind_eq_ok_iff.mp done
    obtain ⟨⟨two, last⟩, second, done⟩ := bind_eq_ok_iff.mp done
    obtain ⟨rfl, rfl⟩ := Prod.mk.inj (Except.ok.inj done)
    obtain ⟨own, rfl⟩ := firsts first
    obtain ⟨more, rfl⟩ := seconds second
    rw [Expr.pools, rollAll_append, diceCount_append, Nat.add_assoc, ← own, ← more]
    exact ⟨handfuls_other_pair _ _, rfl⟩

end Rolls

/-- The pool of an operand, if it rolls dice. -/
def Operand.pool? (state : Advantage) : Operand → Option Pool
  | .integer _ => none
  | .dice count sides => some ⟨countOf count, digitsNumber sides, []⟩
  | .d20 _ => some state.pool

section Operands

theorem pools_addend (state : Advantage) (addend : Addend) :
    (addend.tree state).pools = (addend.operand.pool? state).toList := by
  unfold Addend.tree
  induction addend.signs with
  | nil => cases addend.operand <;> rfl
  | cons sign signs ih => exact ih

private theorem pools_joined (left : Expr Pool) (others : List (Sign × Addend)) :
    (joined state left others).pools =
      left.pools ++ (others.map fun other => other.2.operand).filterMap (Operand.pool? state) := by
  induction others generalizing left with
  | nil => exact (List.append_nil _).symm
  | cons other others ih =>
    change (joined state (.binary other.1.op left (other.2.tree state)) others).pools = _
    rw [ih, Expr.pools, pools_addend, List.append_assoc, List.map_cons, List.filterMap_cons]
    cases other.2.operand.pool? state <;> rfl

private theorem pools_tree (state : Advantage) (sum : SignedSum) :
    (sum.tree state).pools = sum.operands.filterMap (Operand.pool? state) := by
  rw [SignedSum.tree, pools_joined, pools_addend, SignedSum.operands, List.filterMap_cons]
  cases sum.first.operand.pool? state <;> rfl

theorem rolls?_eq (state : Advantage) (operand : Operand) :
    operand.rolls? state = (operand.pool? state).map fun pool => (pool.count, pool.sides) := by
  cases operand with
  | d20 counted => cases state <;> rfl
  | _ => rfl

private theorem map_face_choose (pool : Pool) (shown : List Nat) : (pool.choose shown).map Die.face = shown := by
  rw [Pool.choose, List.map_map]
  exact List.zipIdx_map_fst 0 shown

private theorem keepsBest_choose (highest : Bool) (sides a b : Nat) :
    KeepsBest highest (Pool.choose ⟨2, sides, [⟨highest, 1⟩]⟩ [a, b]) := by
  let keep : Keep := ⟨highest, 1⟩
  let dice := [(a, 0), (b, 1)]
  have both : Pool.choose ⟨2, sides, [keep]⟩ [a, b] =
      [⟨a, keep.selects dice (a, 0)⟩, ⟨b, keep.selects dice (b, 1)⟩] := by
    simp [Pool.choose, dice]
  rw [both]
  by_cases first : if highest then b ≤ a else a ≤ b
  · have kept : keep.selects dice (a, 0) = true ∧ keep.selects dice (b, 1) = false := by
      cases highest <;> simp [Keep.selects, Keep.prefers, keep, dice] at first ⊢ <;> omega
    rw [kept.1, kept.2]
    refine ⟨[], ⟨a, true⟩, [⟨b, false⟩], rfl, rfl, fun other member => ?_⟩
    obtain rfl := List.mem_singleton.mp member
    exact ⟨rfl, first⟩
  · have kept : keep.selects dice (a, 0) = false ∧ keep.selects dice (b, 1) = true := by
      cases highest <;> simp [Keep.selects, Keep.prefers, keep, dice] at first ⊢ <;> omega
    rw [kept.1, kept.2]
    refine ⟨[⟨a, false⟩], ⟨b, true⟩, [], rfl, rfl, fun other member => ?_⟩
    obtain rfl := List.mem_singleton.mp member
    refine ⟨rfl, ?_⟩
    cases highest <;> simp at first ⊢ <;> omega

private theorem keeps_choose {operand : Operand} {pool : Pool} {shown : List Nat}
    (rolls : operand.pool? state = some pool)
    (length : shown.length = pool.count) : operand.Keeps state (pool.choose shown) := by
  have all {pool : Pool} (plain : pool.keeps = []) : ∀ die ∈ pool.choose shown, die.kept = true := by
    intro die member
    obtain ⟨_, _, rfl⟩ := List.mem_map.mp member
    simp [plain]
  cases operand with
  | integer digits => cases rolls
  | dice count sides =>
    obtain rfl := Option.some.inj rolls
    cases state <;> exact all rfl
  | d20 counted =>
    obtain rfl := Option.some.inj rolls
    have pair (highest : Bool) (two : shown.length = 2) :
        KeepsBest highest (Pool.choose ⟨2, 20, [⟨highest, 1⟩]⟩ shown) := by
      obtain ⟨a, b, rfl⟩ := List.length_eq_two.mp two
      exact keepsBest_choose highest 20 a b
    cases state with
    | normal => exact all rfl
    | advantage => exact pair true length
    | disadvantage => exact pair false length

private theorem map_faces_rollAll (state : Advantage) (faces : Faces) (before : Nat) (operands : List Operand) :
    ((rollAll faces before (operands.filterMap (Operand.pool? state))).map fun handful =>
        (handful.sides, handful.dice.map Die.face)) =
      fallen state faces before operands := by
  induction operands generalizing before with
  | nil => rfl
  | cons operand operands ih =>
    rw [fallen, rolls?_eq, List.filterMap_cons]
    cases operand.pool? state with
    | none => exact ih before
    | some pool =>
      dsimp only [Option.map_some]
      rw [rollAll, List.map_cons, map_face_choose, ih]

private theorem keeps_rollAll (state : Advantage) (faces : Faces) (before : Nat) (operands : List Operand) :
    List.Forall₂ (fun operand handful => Operand.Keeps state operand handful.dice)
      (operands.filter fun operand => (operand.rolls? state).isSome)
      (rollAll faces before (operands.filterMap (Operand.pool? state))) := by
  induction operands generalizing before with
  | nil => exact .nil
  | cons operand operands ih =>
    have same := rolls?_eq state operand
    cases rolls : operand.pool? state with
    | none =>
      rw [rolls] at same
      rw [List.filterMap_cons_none rolls, List.filter_cons_of_neg (by simp [same])]
      exact ih before
    | some pool =>
      rw [rolls] at same
      rw [List.filterMap_cons_some rolls, List.filter_cons_of_pos (by simp [same])]
      exact .cons (keeps_choose rolls (by rw [List.length_map, List.length_range])) (ih _)

end Operands

section Totals

variable {rolled : Expr RolledPool}

/-- A sign turns the value of what stands behind it. -/
def turned (negative : Bool) (v : Int) : Int := if negative then -v else v

private theorem turned_xor (first second : Bool) (v : Int) :
    turned (first ^^ second) v = turned first (turned second v) := by
  cases first <;> cases second <;> simp [turned]

/-- The value of a rolled tree is what a term comes to with the dice that were rolled for it, whatever signs it has
and whatever stands behind it. -/
def Counts (rolled : Expr RolledPool) (term : Bool × Operand) : Prop :=
  ∃ v, rolled.value = .ok (.whole v) ∧ ∀ negative terms kept,
    totalOf ((negative ^^ term.1, term.2) :: terms) (rolled.node.handfuls.map Handful.kept ++ kept) =
      turned negative v + totalOf terms kept

private theorem counts_operand {operand : Operand}
    (done : (operand.tree state).roll faces before = .ok (rolled, count)) :
    Counts rolled (false, operand) := by
  have pooled {pool : Pool} (done : (Expr.dice pool).roll faces before = .ok (rolled, count))
      (counted : ∀ negative terms kept, totalOf ((negative, operand) :: terms) kept =
        signedInteger negative (kept.headD []).sum + totalOf terms kept.tail) : Counts rolled (false, operand) := by
    obtain ⟨⟨own, _⟩, _, same⟩ := map_eq_ok_iff.mp done
    obtain ⟨rfl, rfl⟩ := Prod.mk.inj same
    refine ⟨own.total, rfl, fun negative terms kept => ?_⟩
    rw [Bool.xor_false, counted]
    rfl
  cases operand with
  | integer digits =>
    obtain ⟨rfl, rfl⟩ := Prod.mk.inj (Except.ok.inj done)
    refine ⟨digitsNumber digits, rfl, fun negative terms kept => ?_⟩
    rw [Bool.xor_false]
    rfl
  | dice count sides => exact pooled done fun _ _ _ => rfl
  | d20 counted => exact pooled done fun _ _ _ => rfl

theorem Counts.signed {term : Bool × Operand} (counts : Counts rolled term) (negative : Bool) :
    Counts (.signed negative rolled) (negative ^^ term.1, term.2) := by
  obtain ⟨v, value, total⟩ := counts
  refine ⟨turned negative v, ?_, fun sign terms kept => ?_⟩
  · rw [Expr.value, value]
    cases negative <;> rfl
  · rw [Expr.node, handfuls_other_single, ← Bool.xor_assoc, total, turned_xor]

theorem counts_addend {addend : Addend} (done : (addend.tree state).roll faces before = .ok (rolled, count)) :
    Counts rolled (addend.isNegative, addend.operand) := by
  obtain ⟨signs, operand, gap⟩ := addend
  unfold Addend.tree at done
  unfold Addend.isNegative
  induction signs generalizing rolled count with
  | nil => exact counts_operand done
  | cons sign signs ih =>
    obtain ⟨⟨inside, own⟩, first, same⟩ := map_eq_ok_iff.mp done
    obtain ⟨rfl, rfl⟩ := Prod.mk.inj same
    exact (ih first).signed sign.negative

private theorem value_joined {left : Expr Pool} {others : List (Sign × Addend)}
    (done : (joined state left others).roll faces before = .ok (rolled, count)) :
    ∃ first middle, left.roll faces before = .ok (first, middle) ∧
      ∀ v, first.value = .ok (.whole v) → ∃ more, rolled.node.handfuls = first.node.handfuls ++ more ∧
        rolled.value = .ok (.whole (v + totalOf (others.map fun other =>
          (other.1.negative ^^ other.2.isNegative, other.2.operand)) (more.map Handful.kept))) := by
  induction others generalizing left with
  | nil =>
    refine ⟨rolled, count, done, fun v value => ⟨[], (List.append_nil _).symm, ?_⟩⟩
    rw [value, List.map_nil, totalOf, Int.add_zero]
  | cons other others ih =>
    obtain ⟨both, last, rolls, follows⟩ := ih done
    obtain ⟨⟨one, middle⟩, first, rolls⟩ := bind_eq_ok_iff.mp rolls
    obtain ⟨⟨two, _⟩, second, rolls⟩ := bind_eq_ok_iff.mp rolls
    obtain ⟨rfl, rfl⟩ := Prod.mk.inj (Except.ok.inj rolls)
    refine ⟨one, middle, first, fun v value => ?_⟩
    obtain ⟨w, own, total⟩ := counts_addend second
    have added : (Expr.binary other.1.op one two).value = .ok (.whole (v + turned other.1.negative w)) := by
      rw [Expr.value, value, own, Sign.op]
      cases other.1.negative <;> rfl
    obtain ⟨more, handfuls, result⟩ := follows _ added
    refine ⟨two.node.handfuls ++ more, ?_, ?_⟩
    · rw [handfuls, Expr.node, handfuls_other_pair, List.append_assoc]
    · rw [result, List.map_cons, List.map_append, total, Int.add_assoc]

theorem value_tree {sum : SignedSum} (done : (sum.tree state).roll faces before = .ok (rolled, count)) :
    rolled.value = .ok (.whole (totalOf sum.terms (rolled.node.handfuls.map Handful.kept))) := by
  obtain ⟨first, middle, rolls, follows⟩ := value_joined done
  obtain ⟨v, own, total⟩ := counts_addend rolls
  obtain ⟨more, handfuls, result⟩ := follows v own
  have front := total false (sum.others.map fun other => (other.1.negative ^^ other.2.isNegative, other.2.operand))
    (more.map Handful.kept)
  rw [Bool.false_xor] at front
  rw [result, handfuls, List.map_append]
  exact congrArg (fun total => Except.ok (Amount.whole total)) front.symm

end Totals

section Library

variable {sum : SignedSum} {result : Rolled}

theorem exists_tree_of_roll (written : sum.Written) (done : library.roll faces (sum.formula state) = .ok result) :
    ∃ rolled count, (sum.tree state).roll faces 0 = .ok (rolled, count) ∧ rolled.rolled = .ok result := by
  change (read (sum.formula state).toList >>= fun e => e.roll faces 0 >>= fun rolled =>
    rolled.1.rolled.mapError .value) = .ok result at done
  obtain ⟨e, readable, follows⟩ := bind_eq_ok_iff.mp done
  obtain ⟨⟨rolled, count⟩, rolls, finishes⟩ := bind_eq_ok_iff.mp follows
  rw [SignedSum.formula, String.toList_ofList, read_text written] at readable
  split at readable
  · cases readable
  · obtain rfl := Except.ok.inj readable
    exact ⟨rolled, count, rolls, mapError_eq_ok_iff.mp finishes⟩

theorem eq_of_rolled {rolled : Expr RolledPool} {v : Int} (value : rolled.value = .ok (.whole v))
    (done : rolled.rolled = .ok result) : result.tree = rolled.node ∧ result.total = v := by
  rw [Expr.rolled, value] at done
  obtain ⟨amount, whole, done⟩ := bind_eq_ok_iff.mp done
  obtain rfl := Except.ok.inj whole
  obtain ⟨total, truncated, done⟩ := bind_eq_ok_iff.mp done
  obtain rfl := Except.ok.inj truncated
  obtain ⟨text, _, done⟩ := bind_eq_ok_iff.mp done
  obtain rfl := Except.ok.inj done
  exact ⟨rfl, rfl⟩

theorem handfuls_of_tree {rolled : Expr RolledPool}
    (rolls : (sum.tree state).roll faces 0 = .ok (rolled, count)) :
    rolled.node.handfuls = rollAll faces 0 (sum.operands.filterMap (Operand.pool? state)) := by
  rw [(handfuls_of_roll rolls).1, pools_tree]

theorem library_rollsSums : library.RollsSums where
  falls written done := by
    obtain ⟨rolled, count, rolls, done⟩ := exists_tree_of_roll written done
    rw [(eq_of_rolled (value_tree rolls) done).1, handfuls_of_tree rolls, map_faces_rollAll]
  keeps written done := by
    obtain ⟨rolled, count, rolls, done⟩ := exists_tree_of_roll written done
    rw [(eq_of_rolled (value_tree rolls) done).1, handfuls_of_tree rolls]
    exact keeps_rollAll _ _ _ _
  adds written done := by
    obtain ⟨rolled, count, rolls, done⟩ := exists_tree_of_roll written done
    obtain ⟨tree, total⟩ := eq_of_rolled (value_tree rolls) done
    rw [tree, total]

end Library

end HeroSheet.Dice
