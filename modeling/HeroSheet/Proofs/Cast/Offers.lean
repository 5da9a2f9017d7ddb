import HeroSheet.Proofs.Cast.Pools
import HeroSheet.Proofs.Cast.Resolved
import HeroSheet.Proofs.Number.Integer

/-!
Slots that are offered for a spell. A cast that takes an offer is granted while slots of its pool are left and
short when none is, unless the offer is of a pact level beyond the levels of slots.
-/

namespace HeroSheet

/-- The spell is cast from a slot. -/
structure Spell.NeedsSlot (spell : Spell) : Prop where
  leveled : 1 ≤ spell.baseLevel
  notFromItem : spell.isFromItem = false
  notFree : spell.isFree = false

/-- The cast that takes an offer, without metamagic. -/
def SlotOffering.cast (offering : SlotOffering) : CastOptions := ⟨some offering.selection, [], false⟩

namespace SlotSelection

/-- What stands in front of the level in the text of a selection. -/
def mark (isPact : Bool) : List Char := if isPact then pactMark else []

private theorem trim_marked (isPact : Bool) (level : Int) :
    Text.trim (mark isPact ++ integerText level) = mark isPact ++ integerText level := by
  have solid : ∀ c ∈ mark isPact ++ integerText level, isBlank c = false := by
    intro c member
    rcases List.mem_append.mp member with marked | digit
    · have plain : ∀ d ∈ mark isPact, isBlank d = false := forall_of_all (by cases isPact <;> decide)
      exact plain c marked
    · exact not_isBlank_of_mem_integerText digit
  exact Text.strip_of_forall_mem solid

private theorem isPrefixOf_marked (isPact : Bool) (level : Int) :
    pactMark.isPrefixOf (mark isPact ++ integerText level) = isPact := by
  cases isPact with
  | true => exact List.isPrefixOf_iff_prefix.mpr (List.prefix_append _ _)
  | false =>
    apply Bool.eq_false_iff.mpr
    intro marked
    have letter : 'p' ∈ integerText level := (List.isPrefixOf_iff_prefix.mp marked).subset (by decide)
    exact absurd (mem_of_mem_integerText letter) (by decide)

/-- A level is read when it is one of the levels of slots. -/
theorem read_eq_ok_iff {selection : SlotSelection} {marked isPact : Bool} {level own : Int}
    (written : selection.text = mark marked ++ integerText level) :
    selection.read = .ok (own, isPact) ↔
      own = level ∧ isPact = marked ∧ minSlotLevel ≤ level ∧ level ≤ maxSlotLevel := by
  have rest : (if marked then (mark marked ++ integerText level).drop pactMark.length
      else mark marked ++ integerText level) = integerText level := by
    cases marked with
    | true => exact List.drop_left
    | false => rfl
  unfold read
  simp only [written, trim_marked, isPrefixOf_marked, rest]
  rw [readInteger_integerText]
  constructor
  · intro accepted
    split at accepted
    · cases accepted
    · rename_i value read
      split at accepted
      · cases accepted
      · cases accepted
        split at read
        · cases read
        · cases read
          exact ⟨rfl, rfl, by omega, by omega⟩
  · rintro ⟨rfl, rfl, low, high⟩
    have short : (magnitudeText own).length = 1 :=
      length_magnitudeText_of_lt (by unfold minSlotLevel at low; unfold maxSlotLevel at high; omega)
    rw [short, if_neg (by decide)]
    simp only
    rw [if_neg (by omega)]

theorem text_ofLevel (level : Int) : (ofLevel level).text = mark false ++ integerText level := rfl

theorem read_ofLevel {level : Int} (low : minSlotLevel ≤ level) (high : level ≤ maxSlotLevel) :
    (ofLevel level).read = .ok (level, false) :=
  (read_eq_ok_iff (text_ofLevel level)).mpr ⟨rfl, rfl, low, high⟩

end SlotSelection

namespace SlotUsage

variable {usage : SlotUsage} {spellLevel available : Int}

theorem payment_of_available (reaches : spellLevel ≤ usage.level) (left : 0 < available) :
    usage.payment spellLevel available = .granted usage := by
  rw [payment, if_neg (by omega), if_neg (by omega)]

end SlotUsage

theorem mem_slotLevels_iff {level : Int} : level ∈ slotLevels ↔ minSlotLevel ≤ level ∧ level ≤ maxSlotLevel := by
  simp only [slotLevels, minSlotLevel, maxSlotLevel, List.mem_cons, List.not_mem_nil, or_false]
  omega

namespace Character

/-- The offers for a spell: the pact pool if it reaches the spell, and the pools of its level and above. -/
inductive Offers (c : Character) (pactLevel : Option Int) (spellLevel : Int) : SlotOffering → Prop where
  | pact {level : Int} (known : pactLevel = some level) (magic : c.spellSlots.hasPactMagic = true)
      (reaches : spellLevel ≤ level) :
      Offers c pactLevel spellLevel
        ⟨.pact level, level, c.spellSlots.pactCurrent, c.spellSlots.pactMax, true, pactLabel level⟩
  | ordinary {level : Int} (low : minSlotLevel ≤ level) (high : level ≤ maxSlotLevel)
      (reaches : spellLevel ≤ level) (lasting : 0 < (c.ordinaryCounts level pactLevel).2) :
      Offers c pactLevel spellLevel
        ⟨.ofLevel level, level, (c.ordinaryCounts level pactLevel).1, (c.ordinaryCounts level pactLevel).2,
          false, slotLabel level spellLevel⟩

variable {c : Character} {settings : Settings} {spell : Spell}

section Listed

variable {pactLevel : Option Int} {spellLevel : Int} {offering : SlotOffering}

private theorem mem_pactOffering_iff :
    offering ∈ c.pactOffering spellLevel pactLevel ↔ c.Offers pactLevel spellLevel offering ∧ offering.isPact := by
  constructor
  · intro listed
    unfold pactOffering at listed
    cases pactLevel with
    | none => cases listed
    | some level =>
      simp only at listed
      split at listed
      · rename_i offered
        obtain ⟨magic, reaches⟩ := Bool.and_eq_true_iff.mp offered
        obtain rfl := List.mem_singleton.mp listed
        exact ⟨.pact rfl magic (of_decide_eq_true reaches), rfl⟩
      · cases listed
  · rintro ⟨offers, isPact⟩
    cases offers with
    | ordinary => cases isPact
    | pact known magic reaches => simp [pactOffering, known, magic, reaches]

theorem ordinaryOffering_eq_some_iff {level : Int} :
    c.ordinaryOffering spellLevel pactLevel level = some offering ↔
      0 < (c.ordinaryCounts level pactLevel).2 ∧
        offering = ⟨.ofLevel level, level, (c.ordinaryCounts level pactLevel).1,
          (c.ordinaryCounts level pactLevel).2, false, slotLabel level spellLevel⟩ := by
  unfold ordinaryOffering
  simp only
  by_cases empty : (c.ordinaryCounts level pactLevel).2 ≤ 0
  · rw [if_pos empty]
    exact iff_of_false (nomatch ·) fun offered => absurd offered.1 (by omega)
  · rw [if_neg empty, Option.some.injEq]
    constructor
    · intro same
      exact ⟨by omega, same.symm⟩
    · intro offered
      exact offered.2.symm

/-- The list of offers holds the offers. -/
theorem mem_slotOfferings_iff {defaultLevel : Int} {offerings : List SlotOffering}
    (known : c.pactLevel defaultLevel = .ok pactLevel)
    (listed : c.slotOfferings defaultLevel spellLevel = .ok offerings) :
    offering ∈ offerings ↔ c.Offers pactLevel spellLevel offering := by
  unfold slotOfferings at listed
  rw [known] at listed
  obtain rfl := Except.ok.inj listed
  rw [List.mem_append, mem_pactOffering_iff, List.mem_filterMap]
  constructor
  · rintro (⟨offers, _⟩ | ⟨level, among, offered⟩)
    · exact offers
    · obtain ⟨member, reaches⟩ := List.mem_filter.mp among
      obtain ⟨low, high⟩ := mem_slotLevels_iff.mp member
      obtain ⟨lasting, rfl⟩ := ordinaryOffering_eq_some_iff.mp offered
      exact .ordinary low high (of_decide_eq_true reaches) lasting
  · intro offers
    cases offers with
    | pact pactKnown magic reaches => exact Or.inl ⟨.pact pactKnown magic reaches, rfl⟩
    | @ordinary level low high reaches lasting =>
      refine Or.inr ⟨level, ?_, ordinaryOffering_eq_some_iff.mpr ⟨lasting, rfl⟩⟩
      exact List.mem_filter.mpr ⟨mem_slotLevels_iff.mpr ⟨low, high⟩, decide_eq_true reaches⟩

theorem exists_slotOfferings {defaultLevel : Int} (spellLevel : Int)
    (known : c.pactLevel defaultLevel = .ok pactLevel) :
    ∃ offerings, c.slotOfferings defaultLevel spellLevel = .ok offerings := by
  unfold slotOfferings
  rw [known]
  exact ⟨_, rfl⟩

end Listed

section Paid

variable {defaultLevel : Int} {selection : SlotSelection} {level : Int} {isPact : Bool}

private theorem freeReason?_of_needsSlot (needs : spell.NeedsSlot) {options : CastOptions}
    (fresh : options.isRecast = false) : freeReason? spell options = none := by
  have cantrip : spell.isCantrip = false := by
    have leveled := needs.leveled
    simp only [Spell.isCantrip, decide_eq_false_iff_not]
    omega
  simp [freeReason?_eq_none_iff, fresh, needs.notFromItem, needs.notFree, cantrip]

theorem payCast_of_needsSlot (needs : spell.NeedsSlot) {options : CastOptions} (fresh : options.isRecast = false)
    (chosen : options.slot = some selection) :
    c.payCast defaultLevel spell options = (c.payWithSlot defaultLevel spell options selection).map some := by
  unfold payCast
  simp only [freeReason?_of_needsSlot needs fresh, chosen]

private theorem payWithSlot_of_granted {options : CastOptions} {usage : SlotUsage} (plain : options.metamagic = [])
    (selected : selection.read = .ok (level, isPact))
    (checked : c.checkSlot defaultLevel spell.baseLevel level isPact = .ok (.granted usage)) :
    ∃ paid, c.payWithSlot defaultLevel spell options selection = .ok (.granted paid) ∧
      paid.slot = some usage := by
  unfold payWithSlot
  simp only [selected, bind, Except.bind, checked, plain]
  exact ⟨_, rfl, rfl⟩

end Paid

/-- A fresh cast without metamagic uses the slot that its check lets pass. -/
theorem resolveCast_of_checkSlot (needs : spell.NeedsSlot) (options : CastOptions) {selection : SlotSelection}
    {level : Int} {isPact : Bool} {usage : SlotUsage} (fresh : options.isRecast = false)
    (plain : options.metamagic = []) (chosen : options.slot = some selection)
    (selected : selection.read = .ok (level, isPact))
    (checked : c.checkSlot settings.defaultPactLevel spell.baseLevel level isPact = .ok (.granted usage)) :
    ∃ r, c.resolveCast (.ok settings) spell options = .ok (.granted r) ∧ r.slotUsed = some usage := by
  obtain ⟨paid, paying, slot⟩ := payWithSlot_of_granted plain selected checked
  have granted := (payCast_of_needsSlot needs fresh chosen).trans (congrArg (Except.map some) paying)
  obtain ⟨r, resolved, used⟩ := resolveCast_of_granted granted
  exact ⟨r, resolved, used.trans slot⟩

theorem checkSlot_ordinary {defaultLevel spellLevel : Int} (level : Int) {pactLevel : Option Int}
    (known : c.pactLevel defaultLevel = .ok pactLevel) :
    c.checkSlot defaultLevel spellLevel level false =
      .ok ((SlotUsage.ordinary level spellLevel).payment spellLevel (c.ordinaryCounts level pactLevel).1) := by
  unfold checkSlot
  simp [known, bind, Except.bind]

theorem needsSlot_bareSpell {level : Int} (leveled : 1 ≤ level) : (bareSpell level).NeedsSlot := by
  have sourceless : magicItemKeywords.any (mentions (lowered "")) = false := by decide +kernel
  exact ⟨leveled, sourceless, rfl⟩

end Character

end HeroSheet
