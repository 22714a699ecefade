import ColumnTrace.AttributeSet
import ColumnTrace.Lineage.Failure
import ColumnTrace.OrderedMap
import ColumnTrace.Traced

/-!
# Lineage maps

A lineage map sends an output column to the attributes it is computed from. A map that goes down a
plan is a request: what the operators above still need. A map that comes up is an answer: what the
subtree provides. Dependencies are looked up by identity; names are for display.
-/

set_option autoImplicit false

namespace ColumnTrace

/-- Output columns, each with the attributes it is computed from. -/
abbrev LineageMap := OrderedMap Attribute AttributeSet

namespace LineageMap

/-- The sources that a key has in the map; none where it has no entry. -/
def sourcesOf (m : LineageMap) (key : Attribute) : AttributeSet := (m.get? key).getD ∅

/-- The sources of the last key with an identity. -/
def byId? (m : LineageMap) (id : Int) : Option AttributeSet :=
  (m.entries.reverse.find? fun entry => entry.1.id == id).map Prod.snd

/-- Each attribute computed from itself. -/
def identity (attrs : List Attribute) : LineageMap :=
  .ofList (attrs.map fun a => (a, AttributeSet.singleton a))

/-- Both maps in one. A key of both has the sources of the second, and after them those of the
first. -/
def merge (left right : LineageMap) : LineageMap :=
  right.entries.foldl (fun merged entry =>
    merged.insert entry.1 (entry.2 ∪ left.sourcesOf entry.1)) left

/-- All maps in one, merged from left to right. -/
def mergeAll (maps : List LineageMap) : LineageMap := maps.foldl merge ∅

/-- The columns under other names. -/
def rename (m : LineageMap) (name : Attribute → Label) : LineageMap :=
  .ofList (m.entries.map fun entry => (entry.1.withName (name entry.1), entry.2))

/-- What a dependency turns into below: its sources where the identity is known, nothing for a
marker of rows, else itself. -/
def resolve (child : LineageMap) (dependency : Attribute) : List Attribute :=
  match child.byId? dependency.id with
  | some sources => sources.attrs
  | none => if dependency.isCountMarker then [] else [dependency]

/-- The request with every dependency exchanged for what the answer computes it from. An empty
request asks for all that the answer has. -/
def resolveAll (parent child : LineageMap) : LineageMap :=
  if parent.isEmpty then child
  else parent.mapValues fun _ sources => .ofList (sources.attrs.flatMap child.resolve)

/-- The dependencies of a request in order, each with the column that asks for it. -/
def dependencies (m : LineageMap) : List (Attribute × Attribute) :=
  m.entries.flatMap fun entry => entry.2.attrs.map fun a => (entry.1, a)

/-- A dependency whose identity the answer does not know has to be compared with the marker of rows,
and where it is the marker, the column that asks for it has to be shown; both take a name. -/
def lacksName (child : LineageMap) (asked : Attribute × Attribute) : Bool :=
  (child.byId? asked.2.id).isNone &&
    !(asked.2.isNamed && (!asked.2.isCountMarker || asked.1.isNamed))

/-- The log of dependencies that are resolved: the markers of rows that nothing below knows. -/
def droppedMarkers (child : LineageMap) (asked : List (Attribute × Attribute)) : Log :=
  (asked.filter fun pair => (child.byId? pair.2.id).isNone && pair.2.isCountMarker).map fun pair =>
    .debug ("Dropping unresolved count-all marker " ++ pair.2.shown ++ " requested by " ++
      pair.1.shown)

/-- `resolveAll` with its log; it goes on up to a dependency that lacks a name. -/
def join (parent child : LineageMap) : Traced ExtractionError LineageMap :=
  let asked := parent.dependencies
  ⟨child.droppedMarkers (asked.takeWhile (!child.lacksName ·)),
    if asked.any child.lacksName then .error .namelessColumn else .ok (resolveAll parent child)⟩

/-- The name carries a qualifier of its own that ends with this qualifier. -/
def isNamedUnder (qualifier : List String) (a : Attribute) : Bool :=
  a.name.any fun name => 1 < (Text.segments name).length &&
    (Text.dotted qualifier).toList.isSuffixOf (Text.namespaceOf name).toList

/-- How a relation with these columns and this qualifier answers a dependency: its own columns and
the markers of rows get the qualifier, a column asked of a subquery loses the subquery's segment, a
name under the qualifier is cut to its last segment. Anything else it cannot answer. -/
def answer? (output : List Attribute) (qualifier : List String) (a : Attribute) :
    Option Attribute :=
  if output.any (·.id == a.id) then some (a.withQualifier qualifier)
  else if a.isSubqueryMarked then some a.dropLastSegment
  else if a.isCountMarker then some (a.withQualifier qualifier)
  else if isNamedUnder qualifier a then
    some ((a.withName (a.name.map fun name => dropBackticks (Text.lastSegment name))).withQualifier
      qualifier)
  else none

/-- The dependencies that a relation can answer, and for an empty request all its columns. -/
def answerOf (parent : LineageMap) (output : List Attribute) (qualifier : List String) :
    LineageMap :=
  if parent.isEmpty then
    .ofList (output.map fun a => (a, AttributeSet.singleton (a.withQualifier qualifier)))
  else parent.mapValues fun _ sources =>
    .ofList (sources.attrs.filterMap (answer? output qualifier))

/-- The dependency has to be compared by name for want of another answer. -/
def comparesName (output : List Attribute) (a : Attribute) : Bool :=
  !output.any (·.id == a.id) && !a.isSubqueryMarked

/-- The answer of a relation with these columns and this qualifier. -/
def ofRelation (parent : LineageMap) (output : List Attribute) (qualifier : List String) :
    Traced ExtractionError LineageMap :=
  if parent.dependencies.any fun pair => comparesName output pair.2 && !pair.2.isNamed then
    .fail .namelessColumn
  else pure (parent.answerOf output qualifier)

/-- The answer of a relation with a plan behind it, whose lineage has the relation's columns in
order. -/
def ofRelationPlan (parent : LineageMap) (output : List Attribute) (lineage : LineageMap) :
    Traced ExtractionError LineageMap :=
  if lineage.size < output.length then .fail (.unresolvedColumns output.length lineage.size)
  else join parent (.ofList (output.zip lineage.values))

end LineageMap

end ColumnTrace
