import HeroSheet.Cast.Resolution
import HeroSheet.Proofs.Sheet.Bounds

namespace HeroSheet

/-- The counter of the pool that the slot is taken from. -/
def SlotUsage.counter (usage : SlotUsage) : CounterName :=
  if usage.isPact then .pact else .slots usage.level

@[simp] theorem SlotUsage.counter_pact (level : Int) : (SlotUsage.pact level).counter = .pact := rfl

@[simp] theorem SlotUsage.counter_ordinary (level spellLevel : Int) :
    (SlotUsage.ordinary level spellLevel).counter = .slots level :=
  rfl

theorem SlotUsage.payment_eq_granted {usage paid : SlotUsage} {spellLevel available : Int}
    (granted : usage.payment spellLevel available = .granted paid) :
    paid = usage ∧ spellLevel ≤ usage.level ∧ 1 ≤ available := by
  unfold SlotUsage.payment at granted
  split at granted
  · cases granted
  · split at granted
    · cases granted
    · cases granted
      exact ⟨rfl, by omega, by omega⟩

theorem SlotSelection.bounds_of_read {selection : SlotSelection} {level : Int} {isPact : Bool}
    (accepted : selection.read = .ok (level, isPact)) : minSlotLevel ≤ level ∧ level ≤ maxSlotLevel := by
  unfold SlotSelection.read at accepted
  simp only at accepted
  split at accepted
  · cases accepted
  · split at accepted
    · cases accepted
    · cases accepted
      omega

/-- The resolution of a cast that was paid for, with its rolls. -/
def PaidCast.resolution (paid : PaidCast) (spell : Spell) (options : CastOptions) (reusable tooComplicated : Bool)
    (rolls : List RollRequest) : CastResolution :=
  let effects := trackingEffects spell reusable options.isRecast ++ adjudication spell tooComplicated
  ⟨paid.text, rolls, effects, paid.slot, paid.metamagic, spell.isCantrip,
    spell.isFromItem || spell.isFree || options.isRecast, paid.changes, finalPhase effects⟩

/-- The resolution of a cast that waits for a slot, with its rolls. -/
def Spell.pending (spell : Spell) (reusable tooComplicated : Bool) (rolls : List RollRequest) : CastResolution :=
  ⟨"Cast " ++ spell.name ++ " (needs level " ++ toString spell.baseLevel ++ "+ slot)", rolls,
    ⟨.needsSlotSelection, spell.name, some spell.baseLevel, none⟩ ::
      (trackingEffects spell reusable false ++ adjudication spell tooComplicated),
    none, [], false, false, [], .slotSelectionPending⟩

namespace Character

/-- The slots that a check lets pass. -/
inductive Payable (c : Character) (pactLevel : Option Int) : SlotUsage → Prop where
  | pact {level : Int} (expected : ∀ own ∈ pactLevel, own = level)
      (left : 1 ≤ c.spellSlots.pactCurrent) : Payable c pactLevel (.pact level)
  | ordinary {level spellLevel : Int} (low : minSlotLevel ≤ level) (high : level ≤ maxSlotLevel)
      (left : 1 ≤ (c.ordinaryCounts level pactLevel).1) :
      Payable c pactLevel (.ordinary level spellLevel)

/-- The changes that pay for metamagic. -/
inductive Charges (c : Character) : List Metamagic → List ResourceChange → Prop where
  | nothing : Charges c [] []
  | points {used : List Metamagic} {points : Resource} (chosen : used ≠ [])
      (counted : c.sorceryPoints? = some points) (enough : Metamagic.total used ≤ points.current) :
      Charges c used [⟨.resource, points.key, -Metamagic.total used⟩]

/-- The slot has been checked, and the changes take it and what the metamagic costs. -/
structure Plans (c : Character) (defaultLevel : Int) (slot : Option SlotUsage) (used : List Metamagic)
    (changes : List ResourceChange) : Prop where
  payable : ∀ usage ∈ slot, ∃ pactLevel,
    c.pactLevel defaultLevel = .ok pactLevel ∧ c.Payable pactLevel usage
  charged : ∃ charges, c.Charges used charges ∧ changes = slot.toList.map slotChange ++ charges

/-- The two ways in which a cast is paid for: it needs no slot, or one was selected and has been checked. -/
inductive PaidBy (c : Character) (defaultLevel : Int) (spell : Spell) (options : CastOptions) (paid : PaidCast) :
    Prop where
  | nothing {reason : String} (exempt : freeReason? spell options = some reason) (unused : paid.slot = none)
      (charged : c.chargeMetamagic options.metamagic spell.baseLevel = .granted (paid.metamagic, paid.changes))
  | slot {selection : SlotSelection} {level : Int} {isPact : Bool} {usage : SlotUsage}
      {charges : List ResourceChange} (needed : freeReason? spell options = none)
      (chosen : options.slot = some selection) (selected : selection.read = .ok (level, isPact))
      (checked : c.checkSlot defaultLevel spell.baseLevel level isPact = .ok (.granted usage))
      (charged : c.chargeMetamagic options.metamagic level = .granted (paid.metamagic, charges))
      (used : paid.slot = some usage) (changes : paid.changes = slotChange usage :: charges)

variable {c : Character}

section Checked

variable {defaultLevel spellLevel level : Int} {isPact : Bool} {usage : SlotUsage}

theorem checkSlot_cases (granted : c.checkSlot defaultLevel spellLevel level isPact = .ok (.granted usage)) :
    ∃ pactLevel, c.pactLevel defaultLevel = .ok pactLevel ∧
      ((isPact = true ∧ (∀ own ∈ pactLevel, own = level) ∧
          (SlotUsage.pact level).payment spellLevel c.spellSlots.pactCurrent = .granted usage) ∨
        (isPact = false ∧ (SlotUsage.ordinary level spellLevel).payment spellLevel
          (c.ordinaryCounts level pactLevel).1 = .granted usage)) := by
  unfold checkSlot at granted
  obtain ⟨pactLevel, known, granted⟩ := bind_eq_ok_iff.mp granted
  refine ⟨pactLevel, known, ?_⟩
  cases isPact with
  | false => exact Or.inr ⟨rfl, Except.ok.inj granted⟩
  | true =>
    cases pactLevel with
    | none => exact Or.inl ⟨rfl, nofun, Except.ok.inj granted⟩
    | some expected =>
      simp only [if_true] at granted
      split at granted
      · cases granted
      · rename_i same
        exact Or.inl ⟨rfl, by simpa [eq_comm] using same, Except.ok.inj granted⟩

theorem payable_of_checkSlot (low : minSlotLevel ≤ level) (high : level ≤ maxSlotLevel)
    (granted : c.checkSlot defaultLevel spellLevel level isPact = .ok (.granted usage)) :
    ∃ pactLevel, c.pactLevel defaultLevel = .ok pactLevel ∧ c.Payable pactLevel usage := by
  obtain ⟨pactLevel, known, ⟨_, expected, paid⟩ | ⟨_, paid⟩⟩ := checkSlot_cases granted
  · obtain ⟨rfl, _, left⟩ := SlotUsage.payment_eq_granted paid
    exact ⟨pactLevel, known, .pact expected left⟩
  · obtain ⟨rfl, _, left⟩ := SlotUsage.payment_eq_granted paid
    exact ⟨pactLevel, known, .ordinary low high left⟩

/-- The slot that a check lets pass is of the level that was asked for. -/
theorem level_of_checkSlot (granted : c.checkSlot defaultLevel spellLevel level isPact = .ok (.granted usage)) :
    usage.level = level := by
  obtain ⟨_, _, ⟨_, _, paid⟩ | ⟨_, paid⟩⟩ := checkSlot_cases granted <;>
    rw [(SlotUsage.payment_eq_granted paid).1] <;> rfl

/-- A check that grants a slot has found one of a high enough level. -/
theorem reaches_of_checkSlot
    (granted : c.checkSlot defaultLevel spellLevel level isPact = .ok (.granted usage)) :
    spellLevel ≤ usage.level := by
  obtain ⟨_, _, ⟨_, _, paid⟩ | ⟨_, paid⟩⟩ := checkSlot_cases granted
  · obtain ⟨rfl, reaches, _⟩ := SlotUsage.payment_eq_granted paid
    exact reaches
  · obtain ⟨rfl, reaches, _⟩ := SlotUsage.payment_eq_granted paid
    exact reaches

end Checked

theorem charges_of_chargeMetamagic {selected used : List Metamagic} {level : Int}
    {changes : List ResourceChange}
    (granted : c.chargeMetamagic selected level = .granted (used, changes)) : c.Charges used changes := by
  unfold chargeMetamagic at granted
  split at granted
  · cases granted
    exact .nothing
  · rename_i chosen
    simp only at granted
    cases counted : c.sorceryPoints? with
    | none => simp [counted] at granted
    | some points =>
      simp only [counted] at granted
      split at granted
      · cases granted
      · cases granted
        exact .points (by simpa [List.isEmpty_iff] using chosen) counted (by omega)

section Paid

variable {defaultLevel : Int} {spell : Spell} {options : CastOptions} {paid : PaidCast}

private theorem paidBy_of_payFree {reason : String} (exempt : freeReason? spell options = some reason)
    (granted : c.payFree spell options reason = .granted paid) : c.PaidBy defaultLevel spell options paid := by
  unfold payFree at granted
  cases charged : c.chargeMetamagic options.metamagic spell.baseLevel with
  | short shortfall => simp [charged] at granted
  | granted charge =>
    simp only [charged, Payment.granted.injEq] at granted
    subst granted
    exact .nothing exempt rfl charged

private theorem paidBy_of_payWithSlot {selection : SlotSelection} (needed : freeReason? spell options = none)
    (chosen : options.slot = some selection)
    (granted : c.payWithSlot defaultLevel spell options selection = .ok (.granted paid)) :
    c.PaidBy defaultLevel spell options paid := by
  unfold payWithSlot at granted
  obtain ⟨⟨level, isPact⟩, selected, granted⟩ := bind_eq_ok_iff.mp granted
  obtain ⟨outcome, checked, granted⟩ := bind_eq_ok_iff.mp granted
  cases outcome with
  | short shortfall => cases granted
  | granted usage =>
    simp only at granted
    cases charged : c.chargeMetamagic options.metamagic level with
    | short shortfall => simp [charged] at granted
    | granted charge =>
      simp only [charged, Except.ok.injEq, Payment.granted.injEq] at granted
      subst granted
      exact .slot needed chosen selected checked charged rfl rfl

theorem paidBy_of_payCast (granted : c.payCast defaultLevel spell options = .ok (some (.granted paid))) :
    c.PaidBy defaultLevel spell options paid := by
  unfold payCast at granted
  cases free : freeReason? spell options with
  | some reason =>
    simp only [free, Except.ok.injEq, Option.some.injEq] at granted
    exact paidBy_of_payFree free granted
  | none =>
    simp only [free] at granted
    cases chosen : options.slot with
    | none => simp [chosen] at granted
    | some selection =>
      simp only [chosen] at granted
      obtain ⟨payment, outcome, same⟩ := map_eq_ok_iff.mp granted
      obtain rfl := Option.some.inj same
      exact paidBy_of_payWithSlot free chosen outcome

theorem freeReason?_eq_none_iff :
    freeReason? spell options = none ↔
      ¬ (spell.isCantrip = true ∨ spell.isFromItem = true ∨ spell.isFree = true ∨ options.isRecast = true) := by
  unfold freeReason?
  cases options.isRecast <;> cases spell.isFromItem <;> cases spell.isFree <;> cases spell.isCantrip <;> simp

/-- Only a cast that needs a slot waits for one. -/
theorem freeReason?_of_payCast (waits : c.payCast defaultLevel spell options = .ok none) :
    freeReason? spell options = none := by
  unfold payCast at waits
  cases free : freeReason? spell options with
  | none => rfl
  | some reason => simp [free] at waits

theorem PaidBy.plans (how : c.PaidBy defaultLevel spell options paid) :
    c.Plans defaultLevel paid.slot paid.metamagic paid.changes := by
  cases how with
  | nothing _ unused charged =>
    rw [unused]
    exact ⟨nofun, _, charges_of_chargeMetamagic charged, rfl⟩
  | slot _ _ selected checked charged used changes =>
    obtain ⟨low, high⟩ := SlotSelection.bounds_of_read selected
    rw [used, changes]
    refine ⟨?_, _, charges_of_chargeMetamagic charged, rfl⟩
    rintro usage ⟨⟩
    exact payable_of_checkSlot low high checked

end Paid

section Resolved

variable {config : Config} {spell : Spell} {options : CastOptions} {reusable tooComplicated : Bool}
  {r : CastResolution}

theorem paidResolution_eq (paid : PaidCast) :
    c.paidResolution config spell options reusable tooComplicated paid =
      (c.castRolls config spell tooComplicated paid.castLevel).map
        (paid.resolution spell options reusable tooComplicated) := by
  unfold paidResolution
  cases c.castRolls config spell tooComplicated paid.castLevel <;> rfl

theorem pendingResolution_eq :
    c.pendingResolution config spell reusable tooComplicated =
      (c.castRolls config spell tooComplicated none).map (spell.pending reusable tooComplicated) := by
  unfold pendingResolution
  cases c.castRolls config spell tooComplicated none <;> rfl

/-- A cast that is resolved has been paid for, or waits for a slot. -/
theorem resolveCast_cases (resolved : c.resolveCast config spell options = .ok (.granted r)) :
    ∃ settings reusable tooComplicated castLevel rolls, config = .ok settings ∧
      c.castRolls config spell tooComplicated castLevel = .ok rolls ∧
      ((∃ paid, c.payCast settings.defaultPactLevel spell options = .ok (some (.granted paid)) ∧
          r = paid.resolution spell options reusable tooComplicated rolls) ∨
        (c.payCast settings.defaultPactLevel spell options = .ok none ∧
          r = spell.pending reusable tooComplicated rolls)) := by
  unfold resolveCast at resolved
  obtain ⟨settings, configured, resolved⟩ := bind_eq_ok_iff.mp resolved
  obtain ⟨payment, paying, resolved⟩ := bind_eq_ok_iff.mp resolved
  rcases payment with _ | (paid | shortfall)
  · obtain ⟨pending, built, same⟩ := map_eq_ok_iff.mp resolved
    rw [pendingResolution_eq] at built
    obtain ⟨rolls, rolled, rfl⟩ := map_eq_ok_iff.mp built
    exact ⟨settings, _, _, _, rolls, mapError_eq_ok_iff.mp configured, rolled,
      Or.inr ⟨mapError_eq_ok_iff.mp paying, (Payment.granted.inj same).symm⟩⟩
  · obtain ⟨finished, built, same⟩ := map_eq_ok_iff.mp resolved
    rw [paidResolution_eq] at built
    obtain ⟨rolls, rolled, rfl⟩ := map_eq_ok_iff.mp built
    exact ⟨settings, _, _, _, rolls, mapError_eq_ok_iff.mp configured, rolled,
      Or.inl ⟨paid, mapError_eq_ok_iff.mp paying, (Payment.granted.inj same).symm⟩⟩
  · cases resolved

/-- A resolution plans what has been checked. -/
theorem plans_of_resolveCast (resolved : c.resolveCast config spell options = .ok (.granted r)) :
    ∃ settings, config = .ok settings ∧
      c.Plans settings.defaultPactLevel r.slotUsed r.metamagicUsed r.changes := by
  obtain ⟨settings, _, _, _, _, configured, _, ⟨paid, granted, rfl⟩ | ⟨_, rfl⟩⟩ := resolveCast_cases resolved
  · exact ⟨settings, configured, (paidBy_of_payCast granted).plans⟩
  · exact ⟨settings, configured, nofun, [], .nothing, rfl⟩

end Resolved

/-- A spell of a level that rolls nothing. -/
def bareSpell (level : Int) : Spell :=
  ⟨"Zap", some level, "", "", false, false, none, [], none, "", [], false⟩

theorem valid_bareSpell {level : Int} (low : 0 ≤ level) (high : level ≤ maxSlotLevel) : (bareSpell level).Valid where
  named := by simp [bareSpell]
  level := by
    rintro own ⟨⟩
    exact ⟨low, high⟩
  damage := nofun

theorem unruled_bareSpell :
    RuleCatalog.bundled.lookup "Zap" (some .spell) (some .of2014) = none := by decide +kernel

/-- No rule is about this spell, so its resolution is what was paid for. -/
theorem resolveCast_bareSpell {level : Int} {options : CastOptions} {r : CastResolution}
    (paid : PaidCast) (edition : detectEdition .default (some c) = .of2014)
    (granted : c.payCast Settings.default.defaultPactLevel (bareSpell level) options =
      .ok (some (.granted paid)))
    (built : c.paidResolution (.ok .default) (bareSpell level) options false false paid = .ok r) :
    c.resolveCast (.ok .default) (bareSpell level) options = .ok (.granted r) := by
  have reusable : RuleCatalog.bundled.isReusable "Zap" (some .of2014) = false := by
    rw [RuleCatalog.isReusable, unruled_bareSpell, Option.any_none]
  have complicated : RuleCatalog.bundled.isTooComplicated "Zap" (some .of2014) = false := by
    rw [RuleCatalog.isTooComplicated, unruled_bareSpell, Option.any_none]
  unfold resolveCast
  simp only [Except.mapError, bind, Except.bind, edition, granted]
  rw [show (bareSpell level).name = "Zap" from rfl, reusable, complicated, built]
  rfl

end Character

end HeroSheet
