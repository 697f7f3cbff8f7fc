import PostfixCalc.Calculator
import PostfixCalc.Proofs.Infix
import PostfixCalc.Session
import PostfixCalc.Tree
import PostfixCalc.Vocabulary.Standard
import PostfixCalc.Proofs.Reading
import PostfixCalc.Proofs.Stack
import PostfixCalc.Proofs.Replacement
import PostfixCalc.Proofs.Meaning
import PostfixCalc.Proofs.Numeral
import PostfixCalc.Proofs.Written
import PostfixCalc.Proofs.Acceptance
import PostfixCalc.Proofs.Arguments
import PostfixCalc.Proofs.Spelling
import PostfixCalc.Proofs.Rereading
import PostfixCalc.Proofs.Faults
import PostfixCalc.Proofs.Accounting
import PostfixCalc.Proofs.Journal
import PostfixCalc.Proofs.Substitution
import PostfixCalc.Proofs.Extension
import PostfixCalc.Proofs.Layout
import PostfixCalc.Proofs.Snapshot
import PostfixCalc.Proofs.FirstFault
import PostfixCalc.Proofs.Postorder
import PostfixCalc.Proofs.Brackets
import PostfixCalc.Proofs.Arrangement
import PostfixCalc.Proofs.Boundary
import PostfixCalc.Proofs.Pieces
import PostfixCalc.Proofs.Words
import PostfixCalc.Proofs.Printed
import PostfixCalc.Proofs.Commas
import PostfixCalc.Proofs.Segments
