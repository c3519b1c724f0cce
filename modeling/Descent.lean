import Descent.Expectation
import Descent.Main
import Descent.Proofs.Algebra
import Descent.Proofs.Assignment.Forms
import Descent.Proofs.Build.Order
import Descent.Proofs.Chain
import Descent.Proofs.CommandLine.Apart
import Descent.Proofs.Count
import Descent.Proofs.Json.Once
import Descent.Proofs.Json.Tree
import Descent.Proofs.Keeping.Session
import Descent.Proofs.LeftRecursion
import Descent.Proofs.Names
import Descent.Proofs.Ownership.Session
import Descent.Proofs.Pattern.Longest
import Descent.Proofs.Peg.Desugar
import Descent.Proofs.Render.Yaml
import Descent.Proofs.Repetition
import Descent.Proofs.Settings.Layering
import Descent.Session.Basic
import Descent.Session.Callback
import Descent.Proofs.Depth
