import ByteMachine.Fault

/-!
# Memory

A memory of fixed size, addressed from zero. Every access is checked, and a block is stored
entirely or not at all.

* `Memory.get?`: the byte at an address, the view that everything else is said in.
* `Memory.read`, `Memory.write`: access to one byte.
* `Memory.writeBlock`, `Memory.writeIntegers`: a row of bytes from an address on.
* `Memory.chunks`, `Memory.dump`: the contents as rows of text.
-/

namespace ByteMachine

/-- A memory of `size` bytes. -/
structure Memory (size : Nat) where
  bytes : Vector UInt8 size
deriving DecidableEq

/-- The size of the machine's own memory. -/
def ramSize : Nat := 256

/-- The machine's own memory. -/
abbrev Ram : Type := Memory ramSize

/-- Addresses are words of 64 bits, so none of them reaches this number. -/
def addressLimit : Nat := UInt64.size

/-- Why a block was not stored. -/
inductive BlockError
  /-- The block leaves the memory. -/
  | fault (fault : Fault)
  /-- The end of the block is not even an address. -/
  | endOverflow
deriving DecidableEq

namespace Memory

variable {size : Nat}

/-- The memory that holds zeros only. -/
def zero (size : Nat) : Memory size := ⟨Vector.replicate size 0⟩

/-- The byte at an address. -/
def get? (memory : Memory size) (address : Nat) : Option UInt8 := memory.bytes[address]?

@[ext]
theorem ext {a b : Memory size} (h : ∀ address, a.get? address = b.get? address) : a = b := by
  cases a with | mk a =>
  cases b with | mk b =>
  refine congrArg mk (Vector.ext fun i hi => ?_)
  have := h i
  simpa [get?, hi] using this

theorem get?_eq_none_iff {memory : Memory size} {address : Nat} :
    memory.get? address = none ↔ size ≤ address := by
  simp [get?]

/-- Read the byte at an address. -/
def read (address : Nat) : Action (Memory size) UInt8 := do
  match (← get).get? address with
  | some value => pure value
  | none => throw (.outOfBounds .memory address)

/-- Store a byte at an address. -/
def write (address : Nat) (value : UInt8) : Action (Memory size) Unit :=
  if h : address < size then modify fun memory => ⟨memory.bytes.set address value h⟩
  else throw (.outOfBounds .memory address)

theorem run_read (address : Nat) (memory : Memory size) :
    (read address).run memory =
      match memory.get? address with
      | some value => .ok value memory
      | none => .error (.outOfBounds .memory address) memory := by
  cases h : memory.get? address <;> simp [read, h]

theorem run_write (address : Nat) (value : UInt8) (memory : Memory size) :
    (write address value).run memory =
      if h : address < size then .ok () ⟨memory.bytes.set address value h⟩
      else .error (.outOfBounds .memory address) memory := by
  unfold write
  split <;> rfl

/-! ## Blocks -/

/-- The memory with a block laid over it from `start` on. What would lie outside is dropped. -/
def overlay (start : Nat) (block : List UInt8) (memory : Memory size) : Memory size :=
  ⟨Vector.ofFn fun i =>
    if start ≤ i.val then (block[i.val - start]?).getD memory.bytes[i] else memory.bytes[i]⟩

/-- A block is seen where it lies inside the memory, and the old contents everywhere else. -/
theorem get?_overlay (start : Nat) (block : List UInt8) (memory : Memory size) (address : Nat) :
    (overlay start block memory).get? address =
      if start ≤ address then (memory.get? address).map (block[address - start]?).getD
      else memory.get? address := by
  by_cases h : address < size
  · simp only [get?, overlay, Vector.getElem?_eq_getElem h, Vector.getElem_ofFn, Option.map_some]
    split <;> rfl
  · simp [get?, overlay, h]

/-- **Store a block** from `start` on, or leave the memory as it is if the block does not fit. The
fault names the last address of the block, or the one before `start` for an empty block. -/
def writeBlock (start : Nat) (block : List UInt8) : EStateM BlockError (Memory size) Unit :=
  let stop := start + block.length
  if addressLimit ≤ stop then throw .endOverflow
  else if size < stop then throw (.fault (.outOfBounds .memory (stop - 1)))
  else modify (overlay start block)

/-- Store the low eight bits of each integer from `start` on. -/
def writeIntegers (start : Nat) (values : List Int) : EStateM BlockError (Memory size) Unit :=
  writeBlock start (values.map UInt8.ofInt)

/-! ## Dump -/

/-- The rows that bytes are shown in: sixteen at a time, and what is left at the end. -/
def chunks : List UInt8 → List (List UInt8)
  | [] => []
  | byte :: rest => (byte :: rest).take 16 :: chunks ((byte :: rest).drop 16)
termination_by bytes => bytes.length
decreasing_by
  rw [List.length_drop]
  exact Nat.sub_lt (Nat.succ_pos _) (Nat.succ_pos 15)

/-- Row number `number` as text, behind the address of its first byte. -/
def rowText (number : Nat) (chunk : List UInt8) : String :=
  chunk.foldl (fun text byte => text ++ " " ++ Hex.upper byte.toNat)
    (Hex.upper (16 * number) ++ ":")

/-- **The contents as text**, row by row. -/
def dump (memory : Memory size) : List String :=
  ((chunks memory.bytes.toList).zipIdx.foldl
    (fun rows (chunk, number) => rows.push (rowText number chunk)) #[]).toList

theorem rowText_eq (number : Nat) (chunk : List UInt8) :
    rowText number chunk = Hex.upper (16 * number) ++ ":" ++ Hex.fields chunk := by
  unfold rowText Hex.fields
  generalize Hex.upper (16 * number) ++ ":" = text
  induction chunk generalizing text with
  | nil => simp
  | cons byte chunk ih => rw [List.foldl_cons, ih]; simp [String.append_assoc]

theorem dump_eq_map (memory : Memory size) :
    memory.dump =
      (chunks memory.bytes.toList).zipIdx.map fun (chunk, number) => rowText number chunk := by
  simp [dump]

end Memory

end ByteMachine
