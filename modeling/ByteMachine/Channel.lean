/-!
# Output channels

Where printed text goes. A channel may take all of a text, or only some of it and fail.

* `Channel`: how a channel in a state `σ` answers to a text.
* `Channel.unbounded`, `Channel.bounded`: one that takes everything, and one with a capacity.
-/

namespace ByteMachine

/-- **An output channel** with states `σ`. -/
structure Channel (σ : Type) where
  /-- The state after a text was handed over, and the reason if not all of it was taken. -/
  write : σ → String → σ × Option String

namespace Channel

/-- The channel that takes everything. Its state is the text taken so far. -/
def unbounded : Channel String := ⟨fun taken text => (taken ++ text, none)⟩

/-- The channel that takes `capacity` characters in all: of a text that does not fit it takes as
much as still fits, and fails. -/
def bounded (capacity : Nat) : Channel String := ⟨fun taken text =>
  let room := capacity - taken.length
  if text.length ≤ room then (taken ++ text, none)
  else (taken ++ String.ofList (text.toList.take room), some "output full")⟩

end Channel

end ByteMachine
