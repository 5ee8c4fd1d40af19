import RegisterMachine.Main
import RegisterMachine.Proofs.Accounts
import RegisterMachine.Proofs.Advance
import RegisterMachine.Proofs.ArgumentGroups
import RegisterMachine.Proofs.ArgumentOrder
import RegisterMachine.Proofs.Atomicity
import RegisterMachine.Proofs.BoundedRun
import RegisterMachine.Proofs.ClosedOutput
import RegisterMachine.Proofs.Countdown
import RegisterMachine.Proofs.Cycles
import RegisterMachine.Proofs.ExitCode
import RegisterMachine.Proofs.Hosts
import RegisterMachine.Proofs.Interference
import RegisterMachine.Proofs.Messages
import RegisterMachine.Proofs.Observation
import RegisterMachine.Proofs.Padding
import RegisterMachine.Proofs.Pairs
import RegisterMachine.Proofs.Replay
import RegisterMachine.Proofs.Schedules
import RegisterMachine.Proofs.Stack
import RegisterMachine.Proofs.StraightLine
import RegisterMachine.Proofs.Tables
import RegisterMachine.Proofs.Texts
import RegisterMachine.Proofs.Transcript
import RegisterMachine.Recorder
