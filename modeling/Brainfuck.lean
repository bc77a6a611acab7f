import Brainfuck.Files.Tree
import Brainfuck.Main
import Brainfuck.Proofs.Brackets.Open
import Brainfuck.Proofs.Brackets.Search
import Brainfuck.Proofs.Run.Step
import Brainfuck.Proofs.Run.Session
import Brainfuck.Proofs.Run.Invariant
import Brainfuck.Proofs.Run.Meaning
import Brainfuck.Proofs.Semantics.BigStep
import Brainfuck.Proofs.Semantics.Adequacy
import Brainfuck.Proofs.Run.Relocation
import Brainfuck.Proofs.Run.Comments
import Brainfuck.Proofs.Run.Advance
import Brainfuck.Proofs.Run.HigherLimits
import Brainfuck.Proofs.Run.Absorption
import Brainfuck.Proofs.Run.Append
import Brainfuck.Proofs.Run.Resumption
import Brainfuck.Proofs.Run.Accesses
import Brainfuck.Proofs.Run.Calls
import Brainfuck.Proofs.Run.Deeds
import Brainfuck.Proofs.Run.Discipline
import Brainfuck.Proofs.Run.Interruptions
import Brainfuck.Proofs.Run.Causes
import Brainfuck.Proofs.Run.DeadLoops
import Brainfuck.Proofs.Run.Logging
import Brainfuck.Proofs.Invocation.Phases
import Brainfuck.Proofs.Brackets.Partner
import Brainfuck.Proofs.Brackets.Rounds
import Brainfuck.Proofs.Invocation.ExitCodes
import Brainfuck.Proofs.Run.Wraparound
import Brainfuck.Proofs.Run.Turns
import Brainfuck.Proofs.Report.Window
import Brainfuck.Proofs.Words.Search
import Brainfuck.Proofs.Words.Run
import Brainfuck.Proofs.Limits.Resolution
import Brainfuck.Proofs.Tape.History
import Brainfuck.Proofs.LoopStack.Traffic
import Brainfuck.Proofs.Text.Scan
import Brainfuck.Proofs.Toml.Keys
import Brainfuck.Proofs.Limits.Document
