import StrategyGraph.Graph.Edge
import StrategyGraph.Text.Case
import StrategyGraph.Text.Classes

/-!
# Branches of a condition

An edge out of a condition is on its true branch, on its false branch or on neither. The handle or
the label names the branch; where neither does, the side at which the edge leaves tells it.
-/

namespace StrategyGraph

/-- The name of the branch for an outcome. -/
def branchName (outcome : Bool) : String := if outcome then "true" else "false"

/-- The side at which the branch for an outcome leaves. -/
def branchSide (outcome : Bool) : String := if outcome then "bottom" else "right"

/-- The handle is the tag, or ends in a hyphen and the tag. -/
def bearsTag (tag handle : String) : Bool := handle = tag || Text.endsIn handle ("-" ++ tag)

namespace Edge

/-- The handle in lower case, without blanks around it. -/
def handleText (e : Edge) : String := Text.lower (Text.strip (e.sourceHandle.getD ""))

/-- The label in lower case, without blanks around it. -/
def labelText (e : Edge) : String := Text.lower (Text.strip (e.label.getD ""))

/-- The handle or label names the branch for an outcome. -/
def names (e : Edge) (outcome : Bool) : Bool :=
  bearsTag (branchName outcome) e.handleText || e.labelText = branchName outcome

/-- The edge is on the branch for an outcome. -/
def takesBranch (e : Edge) (outcome : Bool) : Bool :=
  e.names outcome
    || (!e.names true && !e.names false && bearsTag (branchSide outcome) e.handleText)

end Edge

end StrategyGraph
