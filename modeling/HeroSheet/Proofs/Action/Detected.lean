import HeroSheet.Action.ClassResource
import HeroSheet.Proofs.Outcome
import HeroSheet.Proofs.Sheet.Valid

namespace HeroSheet

/-- A resource that variables keep count of: the variable of the count, and those that may hold the maximum. -/
structure CountPool where
  title : String
  counter : String
  maxima : List String

namespace Character

/-- The first of the counts that is not zero. -/
def firstCount (c : Character) : List String → Except CountFault Int
  | [] => .ok 0
  | name :: names => do
    let n ← c.count name
    if n = 0 then c.firstCount names else .ok n

/-- The resource of a pool, unless it has no positive maximum. -/
def detect (c : Character) (pool : CountPool) : Except CountFault (List Resource) := do
  let maximum ← c.firstCount pool.maxima
  c.countedResource pool.title pool.counter maximum

/-- The pool of a title, counted by the first of the variables that is there. -/
def pool? (c : Character) (title : String) (counters : List String) (maxima : String → List String) :
    Option CountPool :=
  (counters.find? c.hasVariable).map fun name => ⟨title, name, maxima name⟩

def kiPool? (c : Character) : Option CountPool := c.pool? "Ki" ["ki", "kiPoints"] fun _ => ["kiMax", "kiPointsMax"]

def pactPool? (c : Character) : Option CountPool := c.pool? "Pact Magic" [pactCounterName] fun name => [name ++ "Max"]

def divinityPool? (c : Character) : Option CountPool :=
  c.pool? channelDivinityName channelDivinityVariables fun name => [name ++ "Max"]

/-- The pools that are looked into. -/
def countPools (c : Character) : List CountPool := c.kiPool?.toList ++ (c.pactPool?.toList ++ c.divinityPool?.toList)

/-- The variable is consulted for a maximum among several: those before it all count zero. -/
inductive ConsultsFirst (c : Character) : List String → String → Prop where
  | here {name : String} {names : List String} : ConsultsFirst c (name :: names) name
  | later {name other : String} {names : List String} (zero : c.count name = .ok 0)
      (consults : ConsultsFirst c names other) : ConsultsFirst c (name :: names) other

/-- The variable is consulted for the pool: for a maximum, or for the count where the maximum is positive. -/
inductive Consults (c : Character) (pool : CountPool) : String → Prop where
  | maximum {name : String} (consults : c.ConsultsFirst pool.maxima name) : Consults c pool name
  | counter {maximum : Int} (bounded : c.firstCount pool.maxima = .ok maximum) (positive : 0 < maximum) :
      Consults c pool pool.counter

/-- The variable holds no number that is infinite or undefined. -/
def HoldsFinite (c : Character) (name : String) : Prop := ∀ x ∈ c.number? name, x.isFinite

/-- The resource has a positive maximum, and its counter is the recorded count, kept within its bounds. -/
structure Tracks (c : Character) (r : Resource) : Prop where
  positive : 0 < r.max
  bounds : r.InBounds
  count : ∃ name n, r.variableName = some name ∧ c.hasVariable name ∧ c.count name = .ok n ∧
    r.current = max 0 (min n r.max)

/-- Under this name channel divinity is there, with a positive integer as its maximum. -/
def HasDivinity (c : Character) (name : String) : Prop :=
  name ∈ channelDivinityVariables ∧ c.hasVariable name ∧
    ∃ x n, c.number? (name ++ "Max") = some x ∧ x.isWhole ∧ x.truncate? = some n ∧ 0 < n

/-- Resources are detected, they track recorded counts, and channel divinity is among them whenever it is there. -/
def DetectsSafely (c : Character) : Prop :=
  ∃ found, c.classResources = .ok found ∧ (∀ r ∈ found, c.Tracks r) ∧
    ((∃ name, c.HasDivinity name) → ∃ r ∈ found, r.name = channelDivinityName)

/-- The first name of channel divinity that is there has no positive maximum, and another one has. -/
def HidesDivinity (c : Character) : Prop :=
  ∃ first m, channelDivinityVariables.find? c.hasVariable = some first ∧ c.count (first ++ "Max") = .ok m ∧ m ≤ 0 ∧
    ∃ name, c.HasDivinity name

variable {c : Character} {name : String} {names : List String} {pool : CountPool} {found : List Resource} {r : Resource}

section Pools

/-- The resources of all the pools, one behind the other. -/
def detectAll (c : Character) (pools : List CountPool) : Except CountFault (List Resource) :=
  (pools.mapM c.detect).map List.flatten

theorem detectAll_singleton (c : Character) (pool : CountPool) : c.detectAll [pool] = c.detect pool := by
  unfold detectAll
  rw [List.mapM_cons, List.mapM_nil]
  cases c.detect pool with
  | error fault => rfl
  | ok found => exact congrArg Except.ok (List.append_nil found)

theorem detectAll_append (c : Character) (pools others : List CountPool) :
    c.detectAll (pools ++ others) =
      c.detectAll pools >>= fun found => c.detectAll others >>= fun more => .ok (found ++ more) := by
  unfold detectAll
  rw [List.mapM_append]
  cases pools.mapM c.detect with
  | error fault => rfl
  | ok found =>
    cases others.mapM c.detect with
    | error fault => rfl
    | ok more => exact congrArg Except.ok List.flatten_append

theorem firstCount_singleton (c : Character) (name : String) : c.firstCount [name] = c.count name := by
  unfold firstCount firstCount
  cases c.count name with
  | error fault => rfl
  | ok n =>
    by_cases zero : n = 0
    · rw [zero]
      rfl
    · exact if_neg zero

private theorem kiResource_eq (c : Character) : c.kiResource = c.detectAll c.kiPool?.toList := by
  have maxima : c.firstCount ["kiMax", "kiPointsMax"] =
      c.count "kiMax" >>= fun n => if n = 0 then c.count "kiPointsMax" else .ok n := by
    rw [firstCount]
    simp only [firstCount_singleton]
  unfold kiResource kiPool? pool?
  -- whichever name is there, the maxima are the same two
  cases ki : c.hasVariable "ki" <;> cases points : c.hasVariable "kiPoints"
  · simp only [ki, points, List.find?_cons, List.find?_nil]
    rfl
  all_goals
    simp only [ki, points, Option.toList_some, detectAll_singleton, detect, maxima, List.find?_cons, Option.map_some,
      bind_assoc, Bool.or_true, Bool.or_false, Bool.not_true, Bool.false_eq_true, if_false, if_true]
    refine bind_congr fun n => ?_
    split <;> rfl

private theorem pactResource_eq (c : Character) : c.pactResource = c.detectAll c.pactPool?.toList := by
  unfold pactResource pactPool? pool?
  cases present : c.hasVariable pactCounterName
  · simp only [present, List.find?_cons, List.find?_nil]
    rfl
  · simp [present, detectAll_singleton, detect, firstCount_singleton]

private theorem channelDivinityResource_eq (c : Character) :
    c.channelDivinityResource = c.detectAll c.divinityPool?.toList := by
  unfold channelDivinityResource divinityPool? pool?
  cases channelDivinityVariables.find? c.hasVariable with
  | none => rfl
  | some name =>
    simp only [Option.map_some, Option.toList_some, detectAll_singleton, detect, firstCount_singleton]

/-- The class resources are those of the pools. -/
theorem classResources_eq (c : Character) : c.classResources = c.detectAll c.countPools := by
  unfold classResources countPools
  rw [kiResource_eq, pactResource_eq, channelDivinityResource_eq, detectAll_append, detectAll_append]
  simp only [bind_assoc]
  refine bind_congr fun ki => bind_congr fun pact => bind_congr fun divinity => ?_
  exact congrArg Except.ok (List.append_assoc ki pact divinity)

end Pools

section Counts

theorem exists_count_iff : (∃ n, c.count name = .ok n) ↔ c.HoldsFinite name := by
  unfold count HoldsFinite
  cases c.number? name with
  | none => simp
  | some x => cases x <;> simp [countOf, Binary64.truncate?, Binary64.isFinite]

theorem exists_firstCount_iff :
    (∃ n, c.firstCount names = .ok n) ↔ ∀ name, c.ConsultsFirst names name → c.HoldsFinite name := by
  induction names with
  | nil => exact iff_of_true ⟨0, rfl⟩ nofun
  | cons own names ih =>
    constructor
    · rintro ⟨n, ok⟩ name consults
      rw [firstCount] at ok
      obtain ⟨m, here, ok⟩ := bind_eq_ok_iff.mp ok
      cases consults with
      | here => exact exists_count_iff.mp ⟨m, here⟩
      | later zero consults =>
        obtain rfl := Except.ok.inj (here.symm.trans zero)
        exact ih.mp ⟨n, ok⟩ name consults
    · intro finite
      obtain ⟨m, here⟩ := exists_count_iff.mpr (finite own .here)
      by_cases zero : m = 0
      · subst zero
        obtain ⟨n, later⟩ := ih.mpr fun name consults => finite name (.later here consults)
        exact ⟨n, bind_eq_ok_iff.mpr ⟨0, here, later⟩⟩
      · exact ⟨m, bind_eq_ok_iff.mpr ⟨m, here, if_neg zero⟩⟩

/-- A pool comes to nothing without a positive maximum, and to one resource with it. -/
theorem detect_eq_ok_iff :
    c.detect pool = .ok found ↔
      ∃ maximum, c.firstCount pool.maxima = .ok maximum ∧
        ((maximum ≤ 0 ∧ found = []) ∨
          (0 < maximum ∧ ∃ n, c.count pool.counter = .ok n ∧
            found = [⟨pool.title, max 0 (min n maximum), maximum, some pool.counter⟩])) := by
  unfold detect
  rw [bind_eq_ok_iff]
  refine exists_congr fun maximum => and_congr_right fun _ => ?_
  unfold countedResource
  by_cases none : maximum ≤ 0
  · simp [none, Int.not_lt.mpr none, eq_comm]
  · simp only [none, Int.not_le.mp none, if_false, map_eq_ok_iff, false_and, true_and, false_or]
    exact exists_congr fun n => and_congr_right fun _ => eq_comm

/-- A pool is looked into without a fault exactly when the counts that are consulted are finite. -/
theorem exists_detect_iff :
    (∃ found, c.detect pool = .ok found) ↔ ∀ name, c.Consults pool name → c.HoldsFinite name := by
  constructor
  · rintro ⟨found, done⟩ name consults
    obtain ⟨maximum, bounded, outcome⟩ := detect_eq_ok_iff.mp done
    cases consults with
    | maximum consults => exact exists_firstCount_iff.mp ⟨maximum, bounded⟩ name consults
    | counter again positive =>
      obtain rfl := Except.ok.inj (bounded.symm.trans again)
      rcases outcome with ⟨none, _⟩ | ⟨_, n, counted, _⟩
      · exact absurd positive (Int.not_lt.mpr none)
      · exact exists_count_iff.mp ⟨n, counted⟩
  · intro finite
    obtain ⟨maximum, bounded⟩ := exists_firstCount_iff.mpr fun name consults => finite name (.maximum consults)
    by_cases none : maximum ≤ 0
    · exact ⟨[], detect_eq_ok_iff.mpr ⟨maximum, bounded, .inl ⟨none, rfl⟩⟩⟩
    · have positive := Int.not_le.mp none
      obtain ⟨n, counted⟩ := exists_count_iff.mpr (finite pool.counter (.counter bounded positive))
      exact ⟨_, detect_eq_ok_iff.mpr ⟨maximum, bounded, .inr ⟨positive, n, counted, rfl⟩⟩⟩

theorem exists_classResources_iff :
    (∃ found, c.classResources = .ok found) ↔
      ∀ pool ∈ c.countPools, ∀ name, c.Consults pool name → c.HoldsFinite name := by
  simp only [← exists_detect_iff, classResources_eq, detectAll, map_eq_ok_iff]
  constructor
  · rintro ⟨_, each, done, _⟩ pool member
    exact exists_of_mapM done pool member
  · intro fine
    obtain ⟨each, done⟩ := exists_mapM_eq_ok fine
    exact ⟨each.flatten, each, done, rfl⟩

theorem mem_classResources_iff (done : c.classResources = .ok found) :
    r ∈ found ↔ ∃ pool ∈ c.countPools, ∃ own, c.detect pool = .ok own ∧ r ∈ own := by
  rw [classResources_eq, detectAll] at done
  obtain ⟨each, detected, rfl⟩ := map_eq_ok_iff.mp done
  simp only [List.mem_flatten, mem_iff_of_mapM detected]
  constructor
  · rintro ⟨own, ⟨pool, member, here⟩, inside⟩
    exact ⟨pool, member, own, here, inside⟩
  · rintro ⟨pool, member, own, here, inside⟩
    exact ⟨own, ⟨pool, member, here⟩, inside⟩

end Counts

section Detected

/-- Every pool is counted by a variable that is there. -/
private theorem hasVariable_of_mem_countPools (member : pool ∈ c.countPools) : c.hasVariable pool.counter := by
  have present : ∀ title counters maxima, pool ∈ c.pool? title counters maxima → c.hasVariable pool.counter := by
    intro title counters maxima some
    obtain ⟨name, first, rfl⟩ := Option.map_eq_some_iff.mp some
    exact List.find?_some first
  simp only [countPools, List.mem_append, Option.mem_toList] at member
  rcases member with ki | pact | divinity
  · exact present _ _ _ ki
  · exact present _ _ _ pact
  · exact present _ _ _ divinity

private theorem tracks_of_detect (present : c.hasVariable pool.counter) (done : c.detect pool = .ok found) :
    ∀ r ∈ found, c.Tracks r := by
  intro r member
  obtain ⟨maximum, _, ⟨_, rfl⟩ | ⟨positive, n, counted, rfl⟩⟩ := detect_eq_ok_iff.mp done
  · cases member
  · obtain rfl := List.mem_singleton.mp member
    refine ⟨positive, ⟨Int.le_max_left _ _, ?_⟩, pool.counter, n, rfl, present, counted, rfl⟩
    exact Int.max_le.mpr ⟨Int.le_of_lt positive, Int.min_le_right _ _⟩

/-- Detected channel divinity has a positive maximum under the first of its names that is there. -/
private theorem positive_of_divinity (done : c.classResources = .ok found) (member : r ∈ found)
    (divine : r.name = channelDivinityName) :
    ∃ first m, channelDivinityVariables.find? c.hasVariable = some first ∧ c.count (first ++ "Max") = .ok m ∧ 0 < m := by
  obtain ⟨pool, listed, own, here, inside⟩ := (mem_classResources_iff done).mp member
  obtain ⟨maximum, bounded, ⟨_, rfl⟩ | ⟨positive, n, _, rfl⟩⟩ := detect_eq_ok_iff.mp here
  · cases inside
  · obtain rfl := List.mem_singleton.mp inside
    simp only [countPools, List.mem_append, Option.mem_toList] at listed
    rcases listed with ki | pact | divinity
    · obtain ⟨name, _, rfl⟩ := Option.map_eq_some_iff.mp ki
      exact absurd divine (show "Ki" ≠ channelDivinityName by decide)
    · obtain ⟨name, _, rfl⟩ := Option.map_eq_some_iff.mp pact
      exact absurd divine (show "Pact Magic" ≠ channelDivinityName by decide)
    · obtain ⟨first, found, rfl⟩ := Option.map_eq_some_iff.mp divinity
      rw [firstCount_singleton] at bounded
      exact ⟨first, maximum, found, bounded, positive⟩

/-- Channel divinity that is there is detected, unless it is hidden. -/
private theorem exists_divinity_of_not_hides (done : c.classResources = .ok found) (apparent : ¬ c.HidesDivinity)
    (divine : ∃ name, c.HasDivinity name) : ∃ r ∈ found, r.name = channelDivinityName := by
  obtain ⟨name, listed, present, _⟩ := id divine
  -- the name that is there need not be the one that is looked at: that is the first of those that are there
  obtain ⟨first, here⟩ := Option.isSome_iff_exists.mp (List.find?_isSome.mpr ⟨name, listed, present⟩)
  have member : ⟨channelDivinityName, first, [first ++ "Max"]⟩ ∈ c.countPools := by
    simp only [countPools, List.mem_append, Option.mem_toList]
    exact .inr (.inr (Option.map_eq_some_iff.mpr ⟨first, here, rfl⟩))
  obtain ⟨own, detected⟩ := exists_detect_iff.mpr (exists_classResources_iff.mp ⟨found, done⟩ _ member)
  obtain ⟨maximum, bounded, ⟨none, _⟩ | ⟨_, n, _, rfl⟩⟩ := detect_eq_ok_iff.mp detected
  · rw [firstCount_singleton] at bounded
    exact absurd ⟨first, maximum, here, bounded, none, divine⟩ apparent
  · exact ⟨_, (mem_classResources_iff done).mpr ⟨_, member, _, detected, List.mem_singleton_self _⟩, rfl⟩

/-- Class resources are detected as they should be exactly when the counts that are consulted are finite and no
channel divinity is hidden. -/
theorem detectsSafely_iff (c : Character) :
    c.DetectsSafely ↔
      (∀ pool ∈ c.countPools, ∀ name, c.Consults pool name → c.HoldsFinite name) ∧ ¬ c.HidesDivinity := by
  constructor
  · rintro ⟨found, done, _, divinity⟩
    refine ⟨exists_classResources_iff.mp ⟨found, done⟩, ?_⟩
    rintro ⟨first, m, here, bounded, none, divine⟩
    obtain ⟨r, member, name⟩ := divinity divine
    obtain ⟨own, maximum, again, known, positive⟩ := positive_of_divinity done member name
    obtain rfl := Option.some.inj (here.symm.trans again)
    obtain rfl := Except.ok.inj (bounded.symm.trans known)
    exact absurd positive (Int.not_lt.mpr none)
  · rintro ⟨finite, apparent⟩
    obtain ⟨found, done⟩ := exists_classResources_iff.mpr finite
    refine ⟨found, done, fun r member => ?_, exists_divinity_of_not_hides done apparent⟩
    obtain ⟨pool, listed, own, here, inside⟩ := (mem_classResources_iff done).mp member
    exact tracks_of_detect (hasVariable_of_mem_countPools listed) here r inside

/-- A monk with an infinite count of ki. -/
def tireless : Character :=
  { plain with bag := [("ki", .number (.infinite false)), ("kiMax", .number (.ofInt 3))] }

/-- A cleric without channel divinity, who has that of a paladin. -/
def oathbound : Character :=
  { plain with
    bag := [("channelDivinityCleric", .number (.ofInt 2)), ("channelDivinityClericMax", .number (.ofInt 0)),
      ("channelDivinityPaladin", .number (.ofInt 1)), ("channelDivinityPaladinMax", .number (.ofInt 1))] }

/-- The infinite count is not kept within its bounds but refused, and the channel divinity of the paladin is hidden. -/
theorem not_detectsSafely_tireless_oathbound :
    (tireless.Valid ∧ tireless.classResources = .error .infinite ∧ ¬ tireless.DetectsSafely) ∧
      (oathbound.Valid ∧ oathbound.classResources = .ok [] ∧ oathbound.HasDivinity "channelDivinityPaladin" ∧
        ¬ oathbound.DetectsSafely) := by
  have refused : tireless.classResources = .error .infinite := by decide +kernel
  have passed : oathbound.classResources = .ok [] := by decide +kernel
  have divine : oathbound.HasDivinity "channelDivinityPaladin" :=
    ⟨by decide, by decide +kernel, .ofInt 1, 1, by decide +kernel, by decide +kernel, by decide +kernel, by decide⟩
  refine ⟨⟨{ valid_plain with }, refused, ?_⟩, { valid_plain with }, passed, divine, ?_⟩
  · rintro ⟨found, done, _⟩
    cases refused.symm.trans done
  · rintro ⟨found, done, _, divinity⟩
    obtain rfl := Except.ok.inj (passed.symm.trans done)
    obtain ⟨r, member, _⟩ := divinity ⟨_, divine⟩
    cases member

end Detected

end Character

end HeroSheet
