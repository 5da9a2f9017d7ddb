import HeroSheet.Proofs.Dice.SignedSum
import HeroSheet.Proofs.Outcome
import Mathlib.Data.List.Forall2

/-!
What a dice library does with a sum: its dice fall from left to right, plain dice are all kept and of a pair the best
one is, and the total is that of the integers and the kept dice. From this alone a sum whose single d20 is rolled as a
pair shows what it shows with one die of the better face.
-/

namespace HeroSheet.Dice

/-- The faces that fall for operands, behind so many other dice: for each that rolls dice, its sides and what they
show. -/
def fallen (state : Advantage) (faces : Faces) : Nat → List Operand → List (Nat × List Nat)
  | _, [] => []
  | before, operand :: operands =>
    match operand.rolls? state with
    | none => fallen state faces before operands
    | some (count, sides) =>
      (sides, (List.range count).map fun place => faces (before + place) sides) ::
        fallen state faces (before + count) operands

/-- One die is kept, one of the highest or one of the lowest, and the rest is dropped. -/
def KeepsBest (highest : Bool) (dice : List Die) : Prop :=
  ∃ front die back, dice = front ++ die :: back ∧ die.kept = true ∧
    ∀ other ∈ front ++ back, other.kept = false ∧
      if highest then other.face ≤ die.face else die.face ≤ other.face

/-- Of the dice of an operand all are kept, but one of a pair that stands for a single d20. -/
def Operand.Keeps (state : Advantage) (operand : Operand) (dice : List Die) : Prop :=
  match operand, state.highest? with
  | .d20 _, some highest => KeepsBest highest dice
  | _, _ => ∀ die ∈ dice, die.kept = true

/-- How a library rolls the sums that it does not refuse. -/
structure Library.RollsSums {ε : Type} (library : Library ε) : Prop where
  /-- Dice fall from left to right. -/
  falls : ∀ {state faces sum result}, SignedSum.Written sum → library.roll faces (sum.formula state) = .ok result →
    (result.tree.handfuls.map fun handful => (handful.sides, handful.dice.map Die.face)) =
      fallen state faces 0 sum.operands
  /-- Plain dice are all kept, and of a pair one is, the highest or the lowest. -/
  keeps : ∀ {state faces sum result}, SignedSum.Written sum → library.roll faces (sum.formula state) = .ok result →
    List.Forall₂ (fun operand handful => operand.Keeps state handful.dice)
      (sum.operands.filter fun operand => (operand.rolls? state).isSome) result.tree.handfuls
  /-- The total is that of the integers and the kept dice. -/
  adds : ∀ {state faces sum result}, SignedSum.Written sum → library.roll faces (sum.formula state) = .ok result →
    result.total = totalOf sum.terms (result.tree.handfuls.map Handful.kept)

/-- The better of two faces: the higher, or the lower when low is kept. -/
def betterOf (highest : Bool) (a b : Nat) : Nat := if highest then max a b else min a b

/-- The faces with one die for the two that fall at a place and behind it: the better of them at the place, and
behind it what fell one place later. -/
def Faces.better (highest : Bool) (place : Nat) (faces : Faces) : Faces := fun own sides =>
  if own < place then faces own sides
  else if own = place then betterOf highest (faces place sides) (faces (place + 1) sides)
  else faces (own + 1) sides

variable {highest : Bool} {place before : Nat} {faces : Faces} {state : Advantage} {operand : Operand}
  {operands : List Operand}

section Better

private theorem Faces.better_of_lt {own sides : Nat} (earlier : own < place) :
    faces.better highest place own sides = faces own sides := if_pos earlier

private theorem Faces.better_self {sides : Nat} :
    faces.better highest place place sides = betterOf highest (faces place sides) (faces (place + 1) sides) := by
  rw [Faces.better, if_neg (Nat.lt_irrefl place), if_pos rfl]

private theorem Faces.better_of_gt {own sides : Nat} (later : place < own) :
    faces.better highest place own sides = faces (own + 1) sides := by
  rw [Faces.better, if_neg (by omega), if_neg (by omega)]

end Better

section Kept

/-- What counts of dice: their sides and the kept faces. -/
def Handful.seen (handful : Handful) : Nat × List Nat := (handful.sides, handful.kept)

/-- The faces that are kept of the dice of an operand. -/
def Operand.keptOf (state : Advantage) (operand : Operand) (shown : List Nat) : List Nat :=
  match operand, state.highest? with
  | .d20 _, some highest => [betterOf highest (shown.headD 0) (shown.tail.headD 0)]
  | _, _ => shown

/-- The sides and the kept faces of the dice of operands, behind so many other dice. -/
def seen (state : Advantage) (faces : Faces) : Nat → List Operand → List (Nat × List Nat)
  | _, [] => []
  | before, operand :: operands =>
    match operand.rolls? state with
    | none => seen state faces before operands
    | some (count, sides) =>
      (sides, operand.keptOf state ((List.range count).map fun place => faces (before + place) sides)) ::
        seen state faces (before + count) operands

theorem Handful.kept_of_all {handful : Handful} (all : ∀ die ∈ handful.dice, die.kept = true) :
    handful.kept = handful.dice.map Die.face := by
  rw [Handful.kept, List.filter_eq_self.mpr all]

private theorem kept_of_keepsBest {handful : Handful} {a b : Nat} (best : KeepsBest highest handful.dice)
    (shown : handful.dice.map Die.face = [a, b]) : handful.kept = [betterOf highest a b] := by
  obtain ⟨front, die, back, split, kept, others⟩ := best
  have dropped : ∀ list : List Die, (∀ other ∈ list, other.kept = false) → list.filter (·.kept) = [] := fun list each =>
    List.filter_eq_nil_iff.mpr fun other member => by simp [each other member]
  have alone : handful.kept = [die.face] := by
    rw [Handful.kept, split, List.filter_append, List.filter_cons_of_pos kept,
      dropped front fun other member => (others other (List.mem_append_left back member)).1,
      dropped back fun other member => (others other (List.mem_append_right front member)).1]
    rfl
  rw [alone, betterOf]
  rw [split, List.map_append, List.map_cons] at shown
  match front, back with
  | [], [other] =>
    obtain ⟨rfl, rfl⟩ : die.face = a ∧ other.face = b := by simpa using shown
    have bound := (others other (by simp)).2
    cases highest <;> simp_all
  | [other], [] =>
    obtain ⟨rfl, rfl⟩ : other.face = a ∧ die.face = b := by simpa using shown
    have bound := (others other (by simp)).2
    cases highest <;> simp_all
  | [], [] => simp at shown
  | [], _ :: _ :: _ => simp at shown
  | [_], _ :: _ => simp at shown
  | _ :: _ :: _, _ => simp at shown

private theorem kept_of_keeps {handful : Handful} {count sides : Nat}
    (rolls : operand.rolls? state = some (count, sides))
    (length : handful.dice.length = count) (keeps : operand.Keeps state handful.dice) :
    handful.kept = operand.keptOf state (handful.dice.map Die.face) := by
  have pair (highest : Bool) (two : handful.dice.length = 2) (best : KeepsBest highest handful.dice) :
      handful.kept =
        [betterOf highest ((handful.dice.map Die.face).headD 0) ((handful.dice.map Die.face).tail.headD 0)] := by
    obtain ⟨a, b, both⟩ := List.length_eq_two.mp two
    rw [both]
    exact kept_of_keepsBest best (by rw [both]; rfl)
  cases operand with
  | integer digits => cases rolls
  | dice count sides => cases state <;> exact Handful.kept_of_all keeps
  | d20 counted =>
    obtain ⟨rfl, _⟩ := Prod.mk.inj (Option.some.inj rolls)
    cases state with
    | normal => exact Handful.kept_of_all keeps
    | advantage => exact pair true length keeps
    | disadvantage => exact pair false length keeps

/-- What a library keeps follows from the faces that fell. -/
theorem map_seen_of_falls {handfuls : List Handful}
    (falls : (handfuls.map fun handful => (handful.sides, handful.dice.map Die.face)) =
      fallen state faces before operands)
    (keeps : List.Forall₂ (fun operand handful => Operand.Keeps state operand handful.dice)
      (operands.filter fun operand => (operand.rolls? state).isSome) handfuls) :
    handfuls.map Handful.seen = seen state faces before operands := by
  induction operands generalizing before handfuls with
  | nil =>
    obtain rfl := List.map_eq_nil_iff.mp falls
    rfl
  | cons operand operands ih =>
    rw [fallen] at falls
    rw [seen]
    cases rolls : operand.rolls? state with
    | none =>
      rw [rolls] at falls
      rw [List.filter_cons_of_neg (by simp [rolls])] at keeps
      exact ih falls keeps
    | some dice =>
      obtain ⟨count, sides⟩ := dice
      rw [rolls] at falls
      rw [List.filter_cons_of_pos (by simp [rolls])] at keeps
      obtain ⟨handful, others, own, more, rfl⟩ := List.forall₂_cons_left_iff.mp keeps
      obtain ⟨first, rest⟩ := List.cons.inj falls
      obtain ⟨rfl, shown⟩ := Prod.mk.inj first
      have length : handful.dice.length = count := by simpa using congrArg List.length shown
      rw [List.map_cons, ih rest more, Handful.seen, kept_of_keeps rolls length own, shown]

end Kept

section Rewritten

variable {shown : List Nat}

theorem keptOf_of_other (other : operand.isD20 = false) : operand.keptOf state shown = shown := by
  cases operand with
  | d20 counted => cases other
  | _ => cases state <;> rfl

theorem rolls?_of_other (state : Advantage) (other : operand.isD20 = false) :
    operand.rolls? state = operand.rolls? .normal := by
  cases operand with
  | d20 counted => cases other
  | _ => rfl

private theorem diceBefore_of_other (other : operand.isD20 = false) :
    diceBefore (operand :: operands) = ((operand.rolls? .normal).map Prod.fst).getD 0 + diceBefore operands := by
  rw [diceBefore, List.takeWhile_cons_of_pos (by simp [other])]
  rfl

/-- Behind the two dice everything falls one place later. -/
theorem seen_behind (none : ∀ operand ∈ operands, operand.isD20 = false) (later : place < before) :
    seen state faces (before + 1) operands = seen .normal (faces.better highest place) before operands := by
  induction operands generalizing before with
  | nil => rfl
  | cons operand operands ih =>
    obtain ⟨own, others⟩ := List.forall_mem_cons.mp none
    rw [seen, seen, rolls?_of_other state own]
    rcases operand.rolls? .normal with _ | ⟨count, sides⟩
    · exact ih others later
    · have rest := ih others (Nat.lt_add_right count later)
      have fell : ((List.range count).map fun place => faces (before + 1 + place) sides) =
          (List.range count).map fun own => faces.better highest place (before + own) sides := by
        refine List.map_congr_left fun own _ => ?_
        rw [Faces.better_of_gt (Nat.lt_add_right own later), Nat.add_right_comm]
      dsimp only
      rw [keptOf_of_other own, keptOf_of_other own, fell, Nat.add_right_comm, rest]

/-- Where one die stands for two, the same is seen with the better face. -/
theorem seen_better (kept : state.highest? = some highest) (single : operands.countP Operand.isD20 = 1) :
    seen state faces before operands =
      seen .normal (faces.better highest (before + diceBefore operands)) before operands := by
  induction operands generalizing before with
  | nil => cases single
  | cons operand operands ih =>
    cases own : operand.isD20 with
    | false =>
      rw [List.countP_cons_of_neg (by simp [own])] at single
      rw [seen, seen, rolls?_of_other state own, diceBefore_of_other own]
      rcases operand.rolls? .normal with _ | ⟨count, sides⟩
      · rw [Option.map_none, Option.getD_none, Nat.zero_add]
        exact ih single
      · have rest : seen state faces (before + count) operands =
            seen .normal (faces.better highest (before + count + diceBefore operands)) (before + count) operands :=
          ih single
        have fell : ((List.range count).map fun place => faces (before + place) sides) =
            (List.range count).map fun place =>
              faces.better highest (before + (count + diceBefore operands)) (before + place) sides := by
          refine List.map_congr_left fun place member => ?_
          have inside := List.mem_range.mp member
          rw [Faces.better_of_lt (by omega)]
        dsimp only [Option.map_some, Option.getD_some]
        rw [keptOf_of_other own, keptOf_of_other own, fell, rest, Nat.add_assoc]
    | true =>
      rw [List.countP_cons_of_pos own] at single
      have none : ∀ operand ∈ operands, operand.isD20 = false := by
        simpa [List.countP_eq_zero] using Nat.succ.inj single
      have here : diceBefore (operand :: operands) = 0 := by
        rw [diceBefore, List.takeWhile_cons_of_neg (by simp [own])]
        rfl
      rw [here, Nat.add_zero]
      cases operand with
      | d20 counted =>
        have rest : seen state faces (before + 1 + 1) operands =
            seen .normal (faces.better highest before) (before + 1) operands :=
          seen_behind none (Nat.lt_succ_self before)
        have double : seen state faces before (.d20 counted :: operands) =
            (20, [betterOf highest (faces before 20) (faces (before + 1) 20)]) ::
              seen state faces (before + 1 + 1) operands := by
          simp only [seen, Operand.rolls?, Operand.keptOf, kept]
          rfl
        rw [double, rest, ← Faces.better_self]
        rfl
      | _ => cases own

end Rewritten

/-- What a roll shows besides its texts. -/
structure Shown where
  total : Int
  dice : List Nat
  isCritical : Bool
  isFumble : Bool
  deriving DecidableEq, Repr

def Outcome.shown (outcome : Outcome) : Shown :=
  ⟨outcome.total, outcome.dice, outcome.isCritical, outcome.isFumble⟩

section Shown

variable {ε : Type} {library : Library ε} {sum : SignedSum} {result own : Rolled}

theorem keptFaces_eq_of_seen {tree other : Node}
    (same : tree.handfuls.map Handful.seen = other.handfuls.map Handful.seen)
    (sides : Option Nat) : tree.keptFaces sides = other.keptFaces sides := by
  have faces (tree : Node) : tree.keptFaces sides =
      ((tree.handfuls.map Handful.seen).filter fun seen => sides.all (· == seen.1)).flatMap Prod.snd := by
    rw [List.filter_map, List.flatMap_map]
    rfl
  rw [faces, faces, same]

theorem Library.map_shown_rollFormula (library : Library ε) (written : sum.Written) (label : Option String)
    (rolled : library.roll faces (sum.formula state) = .ok result) :
    (library.rollFormula faces (sum.formula state) label).map Outcome.shown =
      .ok ⟨result.total, result.tree.keptFaces none,
        (result.tree.keptFaces (some decidingSides)).head? == some decidingSides,
        (result.tree.keptFaces (some decidingSides)).head? == some 1⟩ := by
  have solid : ¬ (Text.trim (sum.formula state).toList).isEmpty = true := by
    rw [SignedSum.formula, String.toList_ofList, List.isEmpty_iff]
    exact trim_text_ne_nil state written
  rw [rollFormula, if_neg solid, rolled]
  rfl

/-- A sum with one single d20 shows as a pair what it shows with one die of the better face. -/
theorem Library.RollsSums.shown_better (sums : library.RollsSums) (kept : state.highest? = some highest)
    (written : sum.Written) (single : sum.operands.countP Operand.isD20 = 1) (label : Option String)
    (paired : library.roll faces (sum.formula state) = .ok result)
    (plain : library.roll (faces.better highest sum.diceBefore) (sum.formula .normal) = .ok own) :
    ∃ outcome other, library.rollFormula faces (sum.formula state) label = .ok outcome ∧
      library.rollFormula (faces.better highest sum.diceBefore) (sum.formula .normal) label = .ok other ∧
      outcome.shown = other.shown := by
  have same : result.tree.handfuls.map Handful.seen = own.tree.handfuls.map Handful.seen := by
    have better : seen state faces 0 sum.operands =
        seen .normal (faces.better highest (0 + sum.diceBefore)) 0 sum.operands := seen_better kept single
    rw [map_seen_of_falls (sums.falls written paired) (sums.keeps written paired), better, Nat.zero_add,
      map_seen_of_falls (sums.falls written plain) (sums.keeps written plain)]
  have total : result.total = own.total := by
    have faces (tree : Node) : tree.handfuls.map Handful.kept = (tree.handfuls.map Handful.seen).map Prod.snd := by
      rw [List.map_map]
      rfl
    rw [sums.adds written paired, sums.adds written plain, faces, faces, same]
  obtain ⟨outcome, first, shown⟩ := map_eq_ok_iff.mp (library.map_shown_rollFormula written label paired)
  obtain ⟨other, second, others⟩ := map_eq_ok_iff.mp (library.map_shown_rollFormula written label plain)
  refine ⟨outcome, other, first, second, ?_⟩
  rw [shown, others, total, keptFaces_eq_of_seen same, keptFaces_eq_of_seen same]

end Shown

end HeroSheet.Dice
