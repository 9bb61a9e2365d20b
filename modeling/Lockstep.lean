import Lockstep.Main
import Lockstep.Proofs.LockFile.SecondRun
import Lockstep.Proofs.LockFile.Answer
import Lockstep.Proofs.LockFile.SiblingEdges
import Lockstep.Proofs.Snapshot.Acceptance
import Lockstep.Proofs.Lock.Coherent
import Lockstep.Proofs.Lock.Agreement
import Lockstep.Proofs.LockFile.Run
import Lockstep.Proofs.LockFile.Reordered
import Lockstep.Proofs.LockFile.MixedLineEnds
import Lockstep.Proofs.LockFile.StepByStep
import Lockstep.Proofs.Command.Check
import Lockstep.Proofs.Command.ModuleSpellings
import Lockstep.Proofs.LockFile.Kinds
import Lockstep.Proofs.LockFile.Concatenation
import Lockstep.Proofs.LockFile.Difference
import Lockstep.Proofs.Snapshot.Reported
import Lockstep.Proofs.Snapshot.WrittenBack
