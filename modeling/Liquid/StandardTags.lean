import Liquid.Tag

/-!
# The standard tags

`if` with an optional `else`, `for`, `comment`, `break` and `continue`.  A block keeps its own name
in diagnoses and in its closing tag whatever name it is registered under.
-/

namespace Liquid
namespace StandardTags

/-- The reading of a conditional takes one `else`. -/
def conditionalRules : BlockRules where
  name := "if"
  unknownTag site body :=
    if site.name == "else" && body.alternative.isNone then .ok (.become body.beginAlternative)
    else .error (.atLine (unexpectedTag "if" (some (endNameOf "if")) site.name) site.line)

def conditionalNode (site : Site) (body : Body) : Node :=
  .conditional site.name site.markup body.main.toList (body.alternative.map Array.toList)

/-- A conditional has a condition. -/
def conditional : Definition := fun site =>
  if site.markup.isEmpty then .refuse (.atLine .missingCondition)
  else .block conditionalRules {} fun body => .done (conditionalNode site body)

/-- The item and the collection in the markup of a loop: exactly three words, `in` the second. -/
def loopParts? (markup : String) : Option (String × String) :=
  match Text.words markup with
  | [item, word, collection] => if word == "in" then some (item, collection) else none
  | _ => none

/-- A loop has an item and a collection. -/
def loop : Definition := fun site =>
  match loopParts? site.markup with
  | some (item, collection) =>
    .block { name := "for" } {} fun body =>
      .done (.loop site.name item collection body.main.toList)
  | none => .refuse (.atLine .malformedLoop)

def comment : Definition := fun site =>
  .block { name := "comment" } {} fun body => .done (.comment site.name body.main.toList)

/-- The request that a tag of this name makes to the loop around it. -/
def interruptOf? (name : String) : Option Interrupt :=
  if name == "break" then some .leave
  else if name == "continue" then some .next
  else none

/-- A request to the loop around the tag; the name of the tag tells which. -/
def interrupt : Definition := fun site =>
  match interruptOf? site.name with
  | some request => .done (.interrupt site.name request)
  | none => .refuse (.atLine (.unknownTag site.name))

end StandardTags

def Registry.standard : Registry where
  entries :=
    [("if", StandardTags.conditional), ("for", StandardTags.loop),
      ("comment", StandardTags.comment), ("break", StandardTags.interrupt),
      ("continue", StandardTags.interrupt)]

end Liquid
