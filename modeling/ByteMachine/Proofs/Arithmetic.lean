import ByteMachine.Proofs.Comparison

/-!
# Arithmetic in place

An operation computes with integers and stores the result modulo 256 in its first register, or sets
the flags if it compares. It touches nothing else, and nothing at all if it is refused. So additions
and subtractions undo each other, unless they change the very operand that they need again.

* `Alu.binaryFault?`, `Alu.unaryFault?`: why an operation is refused.
* `Alu.Computes`, **`Alu.computes_applied`**: what an operation changes, and what it does not.
* `Alu.opposite`, **`Alu.opposite_applied`**: operations that undo each other.
* **`Alu.run_eq_exact`**: the arithmetic unit.
-/

namespace ByteMachine

namespace Registers

variable {registers registers' : Registers}

theorem eq_of_value (h : ∀ index, registers.value index = registers'.value index) :
    registers = registers' := by
  obtain ⟨values⟩ := registers
  obtain ⟨values'⟩ := registers'
  refine congrArg mk (Vector.ext fun i hi => ?_)
  have small : i < 2 ^ 8 := Nat.lt_trans hi (by decide)
  have hv := h (UInt8.ofNat i)
  simpa [value, get?, UInt8.toNat_ofNat_of_lt' small, hi] using hv

theorem set_set (index first second : UInt8) :
    (registers.set index first).set index second = registers.set index second := by
  apply eq_of_value
  intro other
  rw [value_set, value_set, value_set]
  split_ifs <;> rfl

theorem set_value (index : UInt8) : registers.set index (registers.value index) = registers := by
  apply eq_of_value
  intro other
  rw [value_set]
  split_ifs with h
  · rw [h.1]
  · rfl

end Registers

theorem Flags.Tell.swap {flags flags' : Flags} {x y : UInt8} (h : flags.Tell x y)
    (h' : flags'.Tell y x) :
    flags.less = flags'.greater ∧ flags.greater = flags'.less ∧ flags.equal = flags'.equal := by
  refine ⟨?_, ?_, ?_⟩ <;> rw [Bool.eq_iff_iff]
  · rw [h.less_iff, h'.greater_iff]
  · rw [h.greater_iff, h'.less_iff]
  · rw [h.equal_iff, h'.equal_iff, eq_comm]

namespace Alu

variable {alu : Alu} {a b : UInt8} {d : Datapath}

/-! ## Refusals -/

/-- Why an operation on two registers is refused. -/
def binaryFault? (alu : Alu) (a b : UInt8) : Option Fault :=
  if registerCount ≤ a.toNat then some (.invalidRegister a)
  else if registerCount ≤ b.toNat then some (.invalidRegister b)
  else if alu = inc ∨ alu = dec then some (.unsupported alu.opcode)
  else none

/-- Why an operation on one register is refused. -/
def unaryFault? (alu : Alu) (a : UInt8) : Option Fault :=
  if registerCount ≤ a.toNat then some (.invalidRegister a)
  else if alu = inc ∨ alu = dec then none
  else some (.unsupported alu.opcode)

theorem binaryFault?_eq_none_iff :
    alu.binaryFault? a b = none ↔
      a.toNat < registerCount ∧ b.toNat < registerCount ∧ alu ≠ inc ∧ alu ≠ dec := by
  unfold binaryFault?
  grind

theorem unaryFault?_eq_none_iff :
    alu.unaryFault? a = none ↔ a.toNat < registerCount ∧ (alu = inc ∨ alu = dec) := by
  unfold unaryFault?
  grind

theorem registerCheck_eq (index : UInt8) :
    Datapath.registerCheck index =
      if registerCount ≤ index.toNat then some (.invalidRegister index) else none := by
  unfold Datapath.registerCheck Fault.unless
  split_ifs <;> first | rfl | omega

theorem checked_binaryFault? (alu : Alu) (a b : UInt8) (d : Datapath) :
    (alu.binary a b).Checked d (alu.binaryFault? a b) (.ok () (alu.applied a b d)) := by
  have checks : (Datapath.registerCheck a).or ((Datapath.registerCheck b).or (alu.arityCheck 2)) =
      alu.binaryFault? a b := by
    rw [registerCheck_eq, registerCheck_eq, binaryFault?]
    split_ifs <;> cases alu <;> simp_all [arityCheck, arity, Fault.unless]
  exact checks ▸ alu.checked_binary a b d

theorem checked_unaryFault? (alu : Alu) (a b : UInt8) (d : Datapath) :
    (alu.unary a).Checked d (alu.unaryFault? a) (.ok () (alu.applied a b d)) := by
  have checks : (Datapath.registerCheck a).or (alu.arityCheck 1) = alu.unaryFault? a := by
    rw [registerCheck_eq, unaryFault?]
    split_ifs <;> cases alu <;> simp_all [arityCheck, arity, Fault.unless]
  exact checks ▸ alu.checked_unary a b d

/-! ## Results -/

/-- **What an operation changes**: its first register, which gets the result modulo 256, or the
flags, which tell how the operands compare. -/
structure Computes (alu : Alu) (a b : UInt8) (d d' : Datapath) : Prop where
  result : alu ≠ cmp → ((d'.registers.value a).toNat : Int) =
    alu.exact (d.registers.value a).toNat (d.registers.value b).toNat % 256
  others : ∀ index, index ≠ a → d'.registers.value index = d.registers.value index
  flags_eq : alu ≠ cmp → d'.flags = d.flags
  registers_eq : alu = cmp → d'.registers = d.registers
  tell : alu = cmp → d'.flags.Tell (d.registers.value a) (d.registers.value b)

theorem applied_of_ne_cmp (h : alu ≠ cmp) :
    alu.applied a b d = { d with
      registers := d.registers.set a
        (UInt8.ofInt (alu.exact (d.registers.value a).toNat (d.registers.value b).toNat)) } := by
  cases alu <;> first | rfl | exact absurd rfl h

theorem toNat_ofInt (n : Int) : ((UInt8.ofInt n).toNat : Int) = n % 256 := by
  have h : (n % 256).toNat < 2 ^ 8 := by omega
  change ((UInt8.ofNat (n % 256).toNat).toNat : Int) = n % 256
  rw [UInt8.toNat_ofNat_of_lt' h]
  omega

theorem computes_applied (ha : a.toNat < registerCount) (alu : Alu) (b : UInt8) (d : Datapath) :
    alu.Computes a b d (alu.applied a b d) := by
  by_cases h : alu = cmp
  · subst h
    exact ⟨fun h => absurd rfl h, fun _ _ => rfl, fun h => absurd rfl h, fun _ => rfl,
      fun _ => Flags.tell_ofComparison _ _⟩
  · rw [applied_of_ne_cmp h]
    refine ⟨fun _ => ?_, fun index hi => Registers.value_set_ne hi _, fun _ => rfl,
      fun hc => absurd hc h, fun hc => absurd hc h⟩
    rw [Registers.value_set_self ha, toNat_ofInt]

/-! ## Operations that undo each other -/

/-- The operation that undoes an addition or a subtraction. -/
def opposite : Alu → Alu
  | add => sub
  | sub => add
  | inc => dec
  | dec => inc
  | alu => alu

/-- An addition or a subtraction. -/
def Additive (alu : Alu) : Prop := alu = add ∨ alu = sub ∨ alu = inc ∨ alu = dec

theorem Additive.opposite (h : alu.Additive) : alu.opposite.Additive := by
  unfold Additive
  obtain rfl | rfl | rfl | rfl := h <;> decide

theorem Additive.ne_cmp (h : alu.Additive) : alu ≠ cmp := by
  obtain rfl | rfl | rfl | rfl := h <;> decide

theorem opposite_exact (additive : alu.Additive) {x y y' : UInt8} (same : alu.arity = 2 → y' = y) :
    UInt8.ofInt (alu.opposite.exact (UInt8.ofInt (alu.exact x.toNat y.toNat)).toNat y'.toNat) =
      x := by
  obtain rfl | rfl | rfl | rfl := additive
  · rw [same rfl]
    simp only [opposite, exact, UInt8.ofInt_add, ofInt_sub, ofInt_toNat, UInt8.add_sub_cancel]
  · rw [same rfl]
    simp only [opposite, exact, UInt8.ofInt_add, ofInt_sub, ofInt_toNat, UInt8.sub_add_cancel]
  · simp only [opposite, exact, UInt8.ofInt_add, ofInt_sub, ofInt_toNat, UInt8.add_sub_cancel]
  · simp only [opposite, exact, UInt8.ofInt_add, ofInt_sub, ofInt_toNat, UInt8.sub_add_cancel]

/-- **Additions and subtractions undo each other**, if the second operand, where there is one, is
another register than the first. -/
theorem opposite_applied (additive : alu.Additive) (ha : a.toNat < registerCount)
    (distinct : alu.arity = 2 → b ≠ a) : alu.opposite.applied a b (alu.applied a b d) = d := by
  rw [applied_of_ne_cmp additive.ne_cmp, applied_of_ne_cmp additive.opposite.ne_cmp]
  dsimp only
  rw [Registers.set_set, Registers.value_set_self ha]
  have operand (new : UInt8) (two : alu.arity = 2) :
      (d.registers.set a new).value b = d.registers.value b :=
    Registers.value_set_ne (distinct two) new
  rw [opposite_exact additive (operand _), Registers.set_value]

/-! ## The arithmetic unit -/

theorem run_binary (h : alu.binaryFault? a b = none) (d : Datapath) :
    (alu.binary a b).run d = .ok () (alu.applied a b d) :=
  (alu.checked_binaryFault? a b d).run_of_passed h

theorem run_unary (h : alu.unaryFault? a = none) (b : UInt8) (d : Datapath) :
    (alu.unary a).run d = .ok () (alu.applied a b d) :=
  (alu.checked_unaryFault? a b d).run_of_passed h

/-- **The arithmetic unit works in place, modulo 256.** It refuses registers that there are not and
operations with another number of operands, and then changes nothing. Otherwise it stores the exact
result modulo 256. Additions and subtractions undo each other, and a comparison the other way round
has the flags for "less" and "greater" the other way round. -/
theorem run_eq_exact (alu : Alu) (a b : UInt8) (d : Datapath) :
    (∀ fault, alu.binaryFault? a b = some fault → (alu.binary a b).run d = .error fault d) ∧
    (alu.binaryFault? a b = none →
      ∃ d', (alu.binary a b).run d = .ok () d' ∧ alu.Computes a b d d') ∧
    (∀ fault, alu.unaryFault? a = some fault → (alu.unary a).run d = .error fault d) ∧
    (alu.unaryFault? a = none → ∃ d', (alu.unary a).run d = .ok () d' ∧ alu.Computes a a d d') ∧
    (alu = add ∨ alu = sub → a.toNat < registerCount → b.toNat < registerCount → a ≠ b →
      (do alu.binary a b; alu.opposite.binary a b).run d = .ok () d) ∧
    (alu = inc ∨ alu = dec → a.toNat < registerCount →
      (do alu.unary a; alu.opposite.unary a).run d = .ok () d) ∧
    (a.toNat < registerCount → b.toNat < registerCount →
      ∃ d₁ d₂, (cmp.binary a b).run d = .ok () d₁ ∧ (cmp.binary b a).run d = .ok () d₂ ∧
        d₁.flags.less = d₂.flags.greater ∧ d₁.flags.greater = d₂.flags.less ∧
        d₁.flags.equal = d₂.flags.equal) := by
  refine ⟨fun fault h => (alu.checked_binaryFault? a b d).run_of_failed h, fun h => ?_,
    fun fault h => (alu.checked_unaryFault? a a d).run_of_failed h, fun h => ?_,
    fun binary ha hb distinct => ?_, fun unary ha => ?_, fun ha hb => ?_⟩
  · exact ⟨_, run_binary h d, computes_applied (binaryFault?_eq_none_iff.mp h).1 alu b d⟩
  · exact ⟨_, run_unary h a d, computes_applied (unaryFault?_eq_none_iff.mp h).1 alu a d⟩
  · have additive : alu.Additive := by
      unfold Additive
      tauto
    have first : alu.binaryFault? a b = none := by
      obtain rfl | rfl := binary <;> simp [binaryFault?_eq_none_iff, ha, hb]
    have second : alu.opposite.binaryFault? a b = none := by
      obtain rfl | rfl := binary <;> simp [binaryFault?_eq_none_iff, ha, hb, opposite]
    rw [EStateM.run_bind, run_binary first]
    dsimp only
    rw [run_binary second, opposite_applied additive ha fun _ => distinct.symm]
  · have additive : alu.Additive := by
      unfold Additive
      tauto
    have first : alu.unaryFault? a = none := unaryFault?_eq_none_iff.mpr ⟨ha, unary⟩
    have second : alu.opposite.unaryFault? a = none := by
      obtain rfl | rfl := unary <;> simp [unaryFault?_eq_none_iff, ha, opposite]
    have one : alu.arity ≠ 2 := by
      obtain rfl | rfl := unary <;> decide
    rw [EStateM.run_bind, run_unary first a]
    dsimp only
    rw [run_unary second a, opposite_applied additive ha fun two => absurd two one]
  · have h : cmp.binaryFault? a b = none := by simp [binaryFault?_eq_none_iff, ha, hb]
    have h' : cmp.binaryFault? b a = none := by simp [binaryFault?_eq_none_iff, ha, hb]
    have tell := (computes_applied ha cmp b d).tell rfl
    have tell' := (computes_applied hb cmp a d).tell rfl
    exact ⟨_, _, run_binary h d, run_binary h' d, tell.swap tell'⟩

/-- A sum that does not fit into a byte and its undoing, a stack pointer counted up beyond 255 and
down again, a comparison both ways round, and two refusals. -/
theorem run_eq_exact_wrapping :
    let d : Datapath := { registers := ⟨#v[200, 100, 0, 0, 0, 0, 0, 255]⟩ }
    (add.binary 9 8).run d = .error (.invalidRegister 9) d ∧
      (inc.binary 0 1).run d = .error (.unsupported .inc) d ∧
      (∃ d', (add.binary 0 1).run d = .ok () d' ∧ add.Computes 0 1 d d' ∧
        (d'.registers.value 0).toNat = 44) ∧
      (do add.binary 0 1; sub.binary 0 1).run d = .ok () d ∧
      (do inc.unary 7; dec.unary 7).run d = .ok () d ∧
      ∃ d₁ d₂, (cmp.binary 0 1).run d = .ok () d₁ ∧ (cmp.binary 1 0).run d = .ok () d₂ ∧
        d₁.flags.less = d₂.flags.greater ∧ d₁.flags.greater = d₂.flags.less ∧
        d₁.flags.equal = d₂.flags.equal := by
  intro d
  obtain ⟨outside, -⟩ := run_eq_exact add 9 8 d
  obtain ⟨unsupported, -⟩ := run_eq_exact inc 0 1 d
  obtain ⟨-, sum, -, -, restored, -, compared⟩ := run_eq_exact add 0 1 d
  obtain ⟨-, -, -, -, -, counted, -⟩ := run_eq_exact inc 7 7 d
  obtain ⟨d', run, computes⟩ := sum (by decide)
  have result : ((d'.registers.value 0).toNat : Int) = 300 % 256 := computes.result (by decide)
  exact ⟨outside _ (by decide), unsupported _ (by decide), ⟨d', run, computes, by omega⟩,
    restored (.inl rfl) (by decide) (by decide) (by decide), counted (.inl rfl) (by decide),
    compared (by decide) (by decide)⟩

end Alu

end ByteMachine
