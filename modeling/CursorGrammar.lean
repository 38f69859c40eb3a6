import CursorGrammar.CharacterClass
import CursorGrammar.Matcher.Printer
import CursorGrammar.Parse
import CursorGrammar.Probe
import CursorGrammar.Proofs.Calls
import CursorGrammar.Proofs.Contract
import CursorGrammar.Proofs.Containment
import CursorGrammar.Proofs.Congruence
import CursorGrammar.Proofs.Limits
import CursorGrammar.Proofs.OrderedChoice
import CursorGrammar.Proofs.Returns
import CursorGrammar.Proofs.Refinement
import CursorGrammar.Proofs.Exploration
import CursorGrammar.Proofs.Leftmost
import CursorGrammar.Proofs.Anchoring
import CursorGrammar.Proofs.Tiling
import CursorGrammar.Proofs.Translation
import CursorGrammar.Proofs.LeftCalls
import CursorGrammar.Proofs.WholeText
import CursorGrammar.Proofs.Conservation
import CursorGrammar.Proofs.EndOfText
import CursorGrammar.Proofs.Rounds
import CursorGrammar.Proofs.Stalling
import CursorGrammar.Proofs.InTurn
import CursorGrammar.Proofs.Agreement
import CursorGrammar.Proofs.CommittedChoice
import CursorGrammar.Proofs.Floor
import CursorGrammar.Proofs.Maximality
import CursorGrammar.Proofs.Collecting
import CursorGrammar.Proofs.Options
import CursorGrammar.Proofs.Presence
import CursorGrammar.Proofs.Grouping
import CursorGrammar.Proofs.Characters
import CursorGrammar.Proofs.Fragments
import CursorGrammar.Proofs.Literals
import CursorGrammar.Proofs.Words
import CursorGrammar.Proofs.Parentheses
import CursorGrammar.Proofs.Loops
import CursorGrammar.Proofs.Numbers
import CursorGrammar.Proofs.Rows
import CursorGrammar.Proofs.Watching
import CursorGrammar.Proofs.Rewinding
import CursorGrammar.Proofs.Nesting
import CursorGrammar.Proofs.Reach
import CursorGrammar.Proofs.PrintedForms
