/-
ClassGraph.Marker — classes that a tool generated, told by their names.

A marker is a non-empty fragment; a class counts as generated when its simple
name holds one.
-/
import ClassGraph.Name.Basic

namespace ClassGraph

/-- The fragments that mark generated classes. -/
structure Markers where
  fragments : List Text
  deriving DecidableEq

namespace Markers

/-- The markers of a list; empty fragments are left out. -/
def ofList (fragments : List Text) : Markers := ⟨fragments.filter fun m => !m.isEmpty⟩

/-- The marker in use where nothing else is asked for. -/
def usual : Markers := ofList [['$', '$']]

/-- Whether the simple name of a class holds a marker. -/
def isGenerated (m : Markers) (n : Name) : Bool :=
  m.fragments.any fun fragment => hasPart fragment n.simple

def describe (m : Markers) : Text := join [',', ' '] m.fragments

end Markers

end ClassGraph
