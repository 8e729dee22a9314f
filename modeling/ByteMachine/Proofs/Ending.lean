import ByteMachine.Proofs.Termination

/-!
# How a run ends

A run that returns has made its cycles one after the other, up to the first that halts or fails, and
it returns without a fault exactly if that one halts. From there it cannot go on: the processor has
halted for good. It does not matter at which cycle one starts to watch.

* `Machine.concluded`, `Machine.Returns`, `Machine.ReturnsAfter`: runs that return, and the number
  of their cycles.
* **`Machine.Returns.cases`**, `Machine.Returns.not_running`: the three ways to return, after which
  nothing is running.
* `Machine.runFor_add_of_success`: a run that is watched from a later cycle on.
* `Machine.Ending`, `Machine.StaysHalted`: all that is said of the end of a run, and that there is
  no way back.
* **`Machine.ending_of_returns`**: runs end like this.
-/

namespace ByteMachine

namespace Action

variable {σ α : Type}

/-- The action takes the one state to the other, whether it succeeds or fails. -/
def Takes (action : Action σ α) (s s' : σ) : Prop :=
  (∃ a, action.run s = .ok a s') ∨ ∃ fault, action.run s = .error fault s'

theorem Checked.eq_or_eq_of_takes {action : Action σ α} {s s' t : σ} {f : Option Fault} {a : α}
    (h : action.Checked s f (.ok a s')) (ht : action.Takes s t) : t = s' ∨ t = s := by
  obtain ⟨b, hb⟩ | ⟨fault, hf⟩ := ht
  · exact .inl (h.eq_of_ok hb).2
  · exact .inr (h.eq_of_error hf)

end Action

namespace Machine

variable {σ : Type} {channel : Channel σ} {m m' : Machine σ} {fault? : Option Fault}

/-! ## Runs that return -/

/-- The machine with a record of its halt, which is all that a run does when there is no cycle left
to make. -/
def concluded (m : Machine σ) : Machine σ :=
  { m with
    journal := m.journal.push
      (.logged (record .info ("Program halted at 0x" ++ Hex.upper m.processor.counter))) }

@[simp]
theorem processor_concluded (m : Machine σ) : m.concluded.processor = m.processor := rfl

/-- What a run has come to that has returned, with a fault or without one. -/
def Progress.returned : Option Fault → Machine σ → Progress σ
  | none, m => .halted m
  | some fault, m => .faulted fault m

theorem Progress.returned_inj {fault?' : Option Fault} :
    (returned fault? m = returned fault?' m') ↔ fault? = fault?' ∧ m = m' := by
  cases fault? <;> cases fault?' <;> simp [returned]

theorem Progress.returned_ne_running : returned fault? m ≠ .running m' := by
  cases fault? <;> nofun

/-- **A run returns**, with a fault or without one, and leaves a machine behind. -/
def Returns (channel : Channel σ) (m : Machine σ) (fault? : Option Fault) (m' : Machine σ) : Prop :=
  ∃ fuel, runFor channel fuel m = .returned fault? m'

/-- A run returns after exactly `n` cycles: with less it is still on its way, and it makes no more
than these. -/
structure ReturnsAfter (channel : Channel σ) (m : Machine σ) (n : Nat) (fault? : Option Fault)
    (m' : Machine σ) : Prop where
  running : ∀ fuel < n, runFor channel fuel m = .running (after channel m fuel)
  returned : ∀ fuel, n ≤ fuel → runFor channel fuel m = .returned fault? m'

theorem runFor_halted (h : m.processor.halted = true) (fuel : Nat) :
    runFor channel fuel m = .returned none m.concluded :=
  runFor_of_halted h fuel

theorem Returns.of_next (running : m.processor.halted = false) (success : failure? channel m = none)
    (h : Returns channel (next channel m) fault? m') : Returns channel m fault? m' := by
  obtain ⟨fuel, h⟩ := h
  exact ⟨fuel + 1, by rw [runFor_succ_of_success running success, h]⟩

/-! ## The three ways to return -/

/-- The last cycle of a run: it halts, or it fails. -/
inductive LastCycle (channel : Channel σ) (m : Machine σ) : Option Fault → Machine σ → Prop
  | halts (decoded : m.processor.decoded = .ok .hlt) :
      LastCycle channel m none (next channel m).concluded
  | fails {fault : Fault} (failure : failure? channel m = some fault) :
      LastCycle channel m (some fault) (next channel m)

/-- **The three ways to return**: the processor had halted before the run, or the run gets to a
cycle that halts it or fails. -/
theorem Returns.cases (h : Returns channel m fault? m') :
    (m.processor.halted = true ∧ fault? = none ∧ m' = m.concluded) ∨
      ∃ j, GetsTo channel m j ∧ LastCycle channel (after channel m j) fault? m' := by
  obtain ⟨fuel, h⟩ := h
  induction fuel generalizing m with
  | zero =>
    by_cases running : m.processor.halted = true
    · rw [runFor_halted running, Progress.returned_inj] at h
      exact .inl ⟨running, h.1.symm, h.2.symm⟩
    · rw [runFor, if_neg running] at h
      exact absurd h.symm Progress.returned_ne_running
  | succ fuel ih =>
    by_cases running : m.processor.halted = true
    · rw [runFor_halted running, Progress.returned_inj] at h
      exact .inl ⟨running, h.1.symm, h.2.symm⟩
    rw [Bool.not_eq_true] at running
    cases hf : failure? channel m with
    | some fault =>
      rw [runFor_succ_of_failure running hf] at h
      have h : Progress.returned (some fault) (next channel m) = .returned fault? m' := h
      obtain ⟨rfl, rfl⟩ := Progress.returned_inj.mp h
      exact .inr ⟨0, getsTo_zero running, .fails hf⟩
    | none =>
      rw [runFor_succ_of_success running hf] at h
      obtain ⟨halts, rfl, rfl⟩ | ⟨j, gets, last⟩ := ih h
      · exact .inr ⟨0, getsTo_zero running, .halts (decoded_of_halted_next running hf halts)⟩
      · exact .inr ⟨j + 1, gets.of_next running hf, last⟩

/-! ## Runs watched from a later cycle on -/

theorem next_of_hlt (channel : Channel σ) (h : m.processor.decoded = .ok .hlt) :
    failure? channel m = none ∧ (next channel m).processor = m.processor.effect .hlt :=
  next_of_silent h rfl (m.processor.fault?_eq .hlt)

theorem runFor_add_of_success {j : Nat}
    (success : ∀ i < j, failure? channel (after channel m i) = none)
    (running : ∀ i < j, (after channel m i).processor.halted = false) (fuel : Nat) :
    runFor channel (j + fuel) m = runFor channel fuel (after channel m j) := by
  induction j generalizing fuel with
  | zero => rw [Nat.zero_add, after_zero]
  | succ j ih =>
    have hj := Nat.lt_succ_self j
    rw [Nat.add_right_comm, Nat.add_assoc,
      ih (fun i hi => success i (Nat.lt_succ_of_lt hi))
        (fun i hi => running i (Nat.lt_succ_of_lt hi)),
      runFor_succ_of_success (running j hj) (success j hj), after_succ]

theorem GetsTo.runFor_add {j : Nat} (h : GetsTo channel m j) (fuel : Nat) :
    runFor channel (j + fuel) m = runFor channel fuel (after channel m j) :=
  runFor_add_of_success h.1 (fun i hi => h.2 i (Nat.le_of_lt hi)) fuel

theorem GetsTo.runFor_eq_running {j : Nat} (h : GetsTo channel m j) {fuel : Nat} (hj : fuel ≤ j) :
    runFor channel fuel m = .running (after channel m fuel) := by
  have hr := runFor_add_of_success (fun i (hi : i < fuel) => h.1 i (Nat.lt_of_lt_of_le hi hj))
    (fun i hi => h.2 i (Nat.le_of_lt (Nat.lt_of_lt_of_le hi hj))) 0
  rw [Nat.add_zero] at hr
  rw [hr, runFor, if_neg (by rw [h.2 fuel hj]; exact Bool.false_ne_true)]

theorem LastCycle.runFor (running : m.processor.halted = false) (h : LastCycle channel m fault? m')
    (fuel : Nat) : Machine.runFor channel (fuel + 1) m = .returned fault? m' := by
  cases h with
  | halts decoded =>
    obtain ⟨success, he⟩ := next_of_hlt channel decoded
    rw [runFor_succ_of_success running success]
    exact runFor_halted (by rw [he]; rfl) fuel
  | fails failure => exact runFor_succ_of_failure running failure fuel

theorem GetsTo.returnsAfter {j : Nat} (h : GetsTo channel m j)
    (last : LastCycle channel (after channel m j) fault? m') :
    ReturnsAfter channel m (j + 1) fault? m' where
  running fuel hf := h.runFor_eq_running (Nat.le_of_lt_succ hf)
  returned fuel hf := by
    obtain ⟨more, rfl⟩ := Nat.exists_eq_add_of_le hf
    rw [Nat.add_assoc, Nat.add_comm 1, h.runFor_add]
    exact last.runFor (h.2 j (Nat.le_refl j)) more

theorem returnsAfter_zero (h : m.processor.halted = true) :
    ReturnsAfter channel m 0 none m.concluded where
  running fuel hf := absurd hf (Nat.not_lt_zero fuel)
  returned fuel _ := runFor_halted h fuel

theorem Returns.exists_returnsAfter (h : Returns channel m fault? m') :
    ∃ n, ReturnsAfter channel m n fault? m' := by
  obtain ⟨halted, rfl, rfl⟩ | ⟨j, gets, last⟩ := h.cases
  · exact ⟨0, returnsAfter_zero halted⟩
  · exact ⟨j + 1, gets.returnsAfter last⟩

namespace ReturnsAfter

variable {n : Nat}

theorem returns (h : ReturnsAfter channel m n fault? m') : Returns channel m fault? m' :=
  ⟨n, h.returned n (Nat.le_refl n)⟩

theorem le_of_returned {fuel : Nat} {fault?' : Option Fault} {m'' : Machine σ}
    (h : ReturnsAfter channel m n fault? m')
    (hr : runFor channel fuel m = .returned fault?' m'') : n ≤ fuel := by
  by_contra hlt
  rw [h.running fuel (Nat.lt_of_not_le hlt)] at hr
  exact Progress.returned_ne_running hr.symm

theorem unique {n' : Nat} {fault?' : Option Fault} {m'' : Machine σ}
    (h : ReturnsAfter channel m n fault? m') (h' : ReturnsAfter channel m n' fault?' m'') :
    n = n' ∧ fault? = fault?' ∧ m' = m'' := by
  have hr := h.returned n (Nat.le_refl n)
  have hr' := h'.returned n' (Nat.le_refl n')
  obtain rfl := Nat.le_antisymm (h.le_of_returned hr') (h'.le_of_returned hr)
  exact ⟨rfl, Progress.returned_inj.mp (hr.symm.trans hr')⟩

theorem cases (h : ReturnsAfter channel m n fault? m') :
    (n = 0 ∧ m.processor.halted = true ∧ fault? = none ∧ m' = m.concluded) ∨
      ∃ j, n = j + 1 ∧ GetsTo channel m j ∧
        LastCycle channel (after channel m j) fault? m' := by
  obtain ⟨halted, rfl, rfl⟩ | ⟨j, gets, last⟩ := h.returns.cases
  · exact .inl ⟨(h.unique (returnsAfter_zero halted)).1, halted, rfl, rfl⟩
  · exact .inr ⟨j, (h.unique (gets.returnsAfter last)).1, gets, last⟩

end ReturnsAfter

/-! ## The end of a run -/

/-- **How a run of `n` cycles has ended.** The cycles are counted from zero. -/
structure Ending (channel : Channel σ) (m : Machine σ) (n : Nat) (fault? : Option Fault)
    (m' : Machine σ) : Prop where
  halted : m'.processor.halted = true
  /-- A run of a halted processor makes no cycle, and so reads and prints nothing. -/
  idle : m.processor.halted = true → n = 0 ∧ fault? = none ∧ m' = m.concluded
  busy : m.processor.halted = false → 0 < n
  /-- No cycle before the last has failed or halted. -/
  before_last : ∀ i, i + 1 < n → failure? channel (after channel m i) = none ∧
    (after channel m i).processor.decoded ≠ .ok .hlt
  /-- The run returns without a fault exactly if its last cycle halts. -/
  none_iff : ∀ last, n = last + 1 →
    (fault? = none ↔ (after channel m last).processor.decoded = .ok .hlt)
  of_none : 0 < n → fault? = none → m' = (after channel m n).concluded ∧
    0 < m'.processor.counter ∧
    m'.processor.memory.get? (m'.processor.counter - 1) = some Opcode.hlt.code
  /-- It returns with a fault exactly if that is the fault of its last cycle. -/
  some_iff : ∀ last, n = last + 1 → ∀ fault,
    fault? = some fault ↔ failure? channel (after channel m last) = some fault
  of_some : ∀ last, n = last + 1 → ∀ fault, fault? = some fault →
    m' = after channel m n ∧
      m'.processor.counter = (after channel m last).processor.counter
  /-- A second run makes no cycle. -/
  again : ReturnsAfter channel m' 0 none m'.concluded
  /-- Starting to watch after `j` cycles makes no difference as long as none of them has failed. -/
  resumed : ∀ j ≤ n, (∀ i < j, failure? channel (after channel m i) = none) →
    Returns channel (after channel m j) fault? m'
  /-- If cycle `j` fails, the run has already ended with it. -/
  resumed_of_failure : ∀ j < n, ∀ fault, failure? channel (after channel m j) = some fault →
    j + 1 = n ∧ fault? = some fault ∧
      Returns channel (after channel m (j + 1)) none m'.concluded

theorem returns_of_halted (h : m.processor.halted = true) :
    Returns channel m none m.concluded :=
  ⟨0, runFor_halted h 0⟩

theorem ending_of_halted (h : m.processor.halted = true) : Ending channel m 0 none m.concluded where
  halted := h
  idle _ := ⟨rfl, rfl, rfl⟩
  busy running := absurd (h.symm.trans running) Bool.noConfusion
  before_last _ hi := absurd hi (Nat.not_lt_zero _)
  none_iff _ hn := absurd hn (Nat.succ_ne_zero _).symm
  of_none hn := absurd hn (Nat.not_lt_zero 0)
  some_iff _ hn := absurd hn (Nat.succ_ne_zero _).symm
  of_some _ hn := absurd hn (Nat.succ_ne_zero _).symm
  again := returnsAfter_zero h
  resumed j hj _ := by
    rw [Nat.le_zero.mp hj]
    exact returns_of_halted h
  resumed_of_failure j hj := absurd hj (Nat.not_lt_zero j)

namespace LastCycle

theorem halted (h : LastCycle channel m fault? m') : m'.processor.halted = true := by
  cases h with
  | halts decoded =>
    rw [processor_concluded, (next_of_hlt channel decoded).2]
    rfl
  | fails failure =>
    rw [processor_of_step_error (step_eq_error_of_failure?_eq_some failure)]

theorem none_iff (h : LastCycle channel m fault? m') :
    fault? = none ↔ m.processor.decoded = .ok .hlt := by
  cases h with
  | halts decoded => exact iff_of_true rfl decoded
  | fails failure =>
    refine iff_of_false (Option.some_ne_none _) fun decoded => ?_
    rw [(next_of_hlt channel decoded).1] at failure
    cases failure

theorem failure_eq (h : LastCycle channel m fault? m') : failure? channel m = fault? := by
  cases h with
  | halts decoded => exact (next_of_hlt channel decoded).1
  | fails failure => exact failure

end LastCycle

theorem Returns.not_running (h : Returns channel m fault? m') : m'.processor.running = false := by
  have halted : m'.processor.halted = true := by
    obtain ⟨halted, -, rfl⟩ | ⟨j, -, last⟩ := h.cases
    · exact halted
    · exact last.halted
  rw [Processor.running, halted]
  rfl

theorem GetsTo.ending {j : Nat} (h : GetsTo channel m j)
    (last : LastCycle channel (after channel m j) fault? m') :
    Ending channel m (j + 1) fault? m' where
  halted := last.halted
  idle halted := absurd (halted.symm.trans (h.2 0 (Nat.zero_le j))) Bool.noConfusion
  busy _ := Nat.zero_lt_succ j
  before_last i hi := by
    have hi := Nat.lt_of_succ_lt_succ hi
    refine ⟨h.1 i hi, fun decoded => ?_⟩
    have running := h.2 (i + 1) hi
    rw [after_succ, (next_of_hlt channel decoded).2] at running
    cases running
  none_iff k hk := by
    obtain rfl := Nat.succ.inj hk
    exact last.none_iff
  of_none _ hn := by
    subst hn
    cases last with
    | halts decoded =>
      rw [after_succ, processor_concluded, (next_of_hlt channel decoded).2]
      refine ⟨rfl, ?_⟩
      exact ⟨Nat.zero_lt_succ _, Processor.decoded_eq_ok_iff.mp decoded⟩
  some_iff k hk fault := by
    obtain rfl := Nat.succ.inj hk
    rw [last.failure_eq]
  of_some k hk fault hf := by
    obtain rfl := Nat.succ.inj hk
    subst hf
    cases last with
    | fails failure =>
      rw [after_succ, processor_of_step_error (step_eq_error_of_failure?_eq_some failure)]
      exact ⟨rfl, rfl⟩
  again := returnsAfter_zero last.halted
  resumed i hi success := by
    have running : ∀ l < i, (after channel m l).processor.halted = false :=
      fun l hl => h.2 l (Nat.le_of_lt_succ (Nat.lt_of_lt_of_le hl hi))
    obtain ⟨rest, hr⟩ := Nat.exists_eq_add_of_le hi
    refine ⟨rest, ?_⟩
    rw [← runFor_add_of_success success running, ← hr]
    exact (h.returnsAfter last).returned _ (Nat.le_refl _)
  resumed_of_failure i hi fault failure := by
    obtain rfl : i = j := by
      by_contra hne
      rw [h.1 i (by omega)] at failure
      cases failure
    rw [last.failure_eq] at failure
    subst failure
    refine ⟨rfl, rfl, ?_⟩
    cases last with
    | fails failure =>
      rw [after_succ]
      exact returns_of_halted (LastCycle.fails failure).halted

/-! ## No way back -/

/-- **Nothing makes a halted processor run again**: no cycle, no instruction and no operation on the
stack, whether it succeeds or fails. -/
structure StaysHalted (channel : Channel σ) : Prop where
  step : ∀ m m', (step channel).Takes m m' → m.processor.halted = true →
    m'.processor.halted = true
  execute : ∀ op m m', (execute channel op).Takes m m' → m.processor.halted = true →
    m'.processor.halted = true
  push : ∀ value p p', (Processor.push value).Takes p p' → p.halted = true → p'.halted = true
  pushRegister : ∀ index p p', (Processor.pushRegister index).Takes p p' → p.halted = true →
    p'.halted = true
  pop : ∀ p p', Processor.pop.Takes p p' → p.halted = true → p'.halted = true
  popRegister : ∀ index p p', (Processor.popRegister index).Takes p p' → p.halted = true →
    p'.halted = true

theorem halted_effect {p : Processor} (h : p.halted = true) (op : Opcode) :
    (p.effect op).halted = true := by
  cases op with
  | hlt => rfl
  | _ => exact h

theorem processor_of_execute {op : Opcode} (h : (execute channel op).Takes m m') :
    m'.processor = m.processor ∨ m'.processor = m.processor.effect op := by
  obtain ⟨⟨⟩, h⟩ | ⟨fault, h⟩ := h
  · have hf := (checked_execute channel m op).eq_none_of_ok h
    rw [(checked_execute channel m op).run_of_passed hf] at h
    exact .inr (processor_of_performed_ok h)
  · exact .inl (processor_of_execute_error h)

theorem eq_next_of_takes (h : (step channel).Takes m m') : m' = next channel m := by
  unfold next
  obtain ⟨a, h⟩ | ⟨fault, h⟩ := h <;> rw [h]

theorem staysHalted (channel : Channel σ) : StaysHalted channel where
  step m m' h halted := by
    rw [eq_next_of_takes h]
    obtain ⟨-, op, -, -, he⟩ | ⟨fault, -, he⟩ := next_cases channel m
    · rw [he]
      exact halted_effect halted op
    · rw [he]
  execute op m m' h halted := by
    obtain he | he := processor_of_execute h
    · rw [he, halted]
    · rw [he]
      exact halted_effect halted op
  push value p p' h halted := by
    obtain rfl | rfl := (p.checked_push value).eq_or_eq_of_takes h <;> exact halted
  pushRegister index p p' h halted := by
    obtain rfl | rfl := (p.checked_pushRegister index).eq_or_eq_of_takes h <;> exact halted
  pop p p' h halted := by
    obtain rfl | rfl := p.checked_pop.eq_or_eq_of_takes h <;> exact halted
  popRegister index p p' h halted := by
    obtain rfl | rfl := (p.checked_popRegister index).eq_or_eq_of_takes h <;> exact halted

/-- **How runs end.** -/
theorem ending_of_returns (h : Returns channel m fault? m') :
    (∃ n, ReturnsAfter channel m n fault? m' ∧ Ending channel m n fault? m') ∧
      StaysHalted channel := by
  refine ⟨?_, staysHalted channel⟩
  obtain ⟨halted, rfl, rfl⟩ | ⟨j, gets, last⟩ := h.cases
  · exact ⟨0, returnsAfter_zero halted, ending_of_halted halted⟩
  · exact ⟨j + 1, gets.returnsAfter last, gets.ending last⟩

/-- A print and a halt, and a print with nothing behind it. -/
theorem ending_of_returns_print :
    (∃ m' n, Returns .unbounded (loaded [0x47, 0x07, 0x01]) none m' ∧
      m'.processor.counter = 3 ∧ ReturnsAfter .unbounded (loaded [0x47, 0x07, 0x01]) n none m' ∧
      Ending .unbounded (loaded [0x47, 0x07, 0x01]) n none m') ∧
    ∃ m' n, Returns .unbounded (loaded [0x47, 0x07]) (some (.invalidOpcode 0 2)) m' ∧
      m'.processor.counter = 2 ∧
      ReturnsAfter .unbounded (loaded [0x47, 0x07]) n (some (.invalidOpcode 0 2)) m' ∧
      Ending .unbounded (loaded [0x47, 0x07]) n (some (.invalidOpcode 0 2)) m' := by
  constructor
  · let m := loaded [0x47, 0x07, 0x01]
    have hd : m.processor.decoded = .ok .prn :=
      Processor.decoded_eq_ok_iff.mpr (by decide +kernel)
    obtain ⟨success, printed, -⟩ :=
      next_of_accepts Channel.accepts_unbounded hd (by decide +kernel)
    have hlt : (next .unbounded m).processor.decoded = .ok .hlt :=
      Processor.decoded_eq_ok_iff.mpr (by rw [printed]; decide +kernel)
    obtain ⟨-, halted⟩ := next_of_hlt .unbounded hlt
    have returns : Returns .unbounded m none (next .unbounded (next .unbounded m)).concluded :=
      .of_next rfl success ⟨1, (LastCycle.halts hlt).runFor (by rw [printed]; rfl) 0⟩
    have counter : (next .unbounded (next .unbounded m)).concluded.processor.counter = 3 := by
      rw [processor_concluded, halted, printed]
      decide +kernel
    obtain ⟨⟨n, after, ending⟩, -⟩ := ending_of_returns returns
    exact ⟨_, n, returns, counter, after, ending⟩
  · let m := loaded [0x47, 0x07]
    have hd : m.processor.decoded = .ok .prn :=
      Processor.decoded_eq_ok_iff.mpr (by decide +kernel)
    obtain ⟨success, printed, -⟩ :=
      next_of_accepts Channel.accepts_unbounded hd (by decide +kernel)
    have fails : (next .unbounded m).processor.decoded = .error (.invalidOpcode 0 2) := by
      rw [printed]
      decide +kernel
    have failure : failure? .unbounded (next .unbounded m) = some (.invalidOpcode 0 2) := by
      unfold failure?
      rw [step_of_decoded_error fails]
    have returns : Returns .unbounded m (some (.invalidOpcode 0 2))
        (next .unbounded (next .unbounded m)) :=
      .of_next rfl success ⟨1, (LastCycle.fails failure).runFor (by rw [printed]; rfl) 0⟩
    have counter : (next .unbounded (next .unbounded m)).processor.counter = 2 := by
      rw [processor_of_step_error (step_eq_error_of_failure?_eq_some failure), printed]
      decide +kernel
    obtain ⟨⟨n, after, ending⟩, -⟩ := ending_of_returns returns
    exact ⟨_, n, returns, counter, after, ending⟩

end Machine

end ByteMachine
