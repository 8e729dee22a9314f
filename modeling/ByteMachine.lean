import ByteMachine.Main
import ByteMachine.Proofs.Parts
import ByteMachine.Proofs.Instruction
import ByteMachine.Proofs.Cycle
import ByteMachine.Proofs.Stack
import ByteMachine.Proofs.Subroutine
import ByteMachine.Proofs.Run
import ByteMachine.Proofs.Program
import ByteMachine.Proofs.StraightLine
import ByteMachine.Proofs.Independence
import ByteMachine.Proofs.Image.Format
import ByteMachine.Proofs.Image.Loading
import ByteMachine.Proofs.Counter
import ByteMachine.Proofs.AddressUnit
import ByteMachine.Proofs.Diagnosis
import ByteMachine.Proofs.Termination
import ByteMachine.Proofs.Output
import ByteMachine.Proofs.Image.Listing
import ByteMachine.Proofs.Protection
import ByteMachine.Proofs.Ending
import ByteMachine.Proofs.Journal
import ByteMachine.Proofs.Host
import ByteMachine.Proofs.Display
import ByteMachine.Proofs.Invocation
import ByteMachine.Proofs.Transcript
import ByteMachine.Proofs.Image.Layout
import ByteMachine.Proofs.Printout
import ByteMachine.Proofs.Comparison
import ByteMachine.Proofs.Arithmetic
import ByteMachine.Proofs.Dump
import ByteMachine.Proofs.Saving
import ByteMachine.Proofs.Storage
import ByteMachine.Proofs.Forward
import ByteMachine.Proofs.Trace
import ByteMachine.Proofs.AddressSpace
