import Liquid.Node
import Liquid.Token

/-!
# Tags

How a tag is read.  A definition looks at the place where the tag stands and answers with a
`Reading`: a finished node, an error, a request for tokens as they are, or a request for a block of
nodes that ends with a closing tag.  A registry maps names to definitions.  A tag that the registry
does not know is left to the block in which it stands, which answers likewise.

Some things no definition can do here: go on after an error in a block that it asked for; ask for
blocks without a bound, as it may for tokens; keep more in a block than two lists of nodes and a
mark; or learn the line after a block, unless it refuses the tag there.
-/

namespace Liquid

/-- The place of a tag: its name and markup, its line, and the settings of the template. -/
structure Site where
  name : String
  markup : String
  line : Nat
  options : Options

/-- The nodes inside a block: a first list, a second one once it has begun, and whether the closing
tag has been met.  Nodes are added to the list that began last. -/
structure Body where
  main : Array Node := #[]
  alternative : Option (Array Node) := none
  closed : Bool := false

namespace Body

def push (b : Body) (n : Node) : Body :=
  match b.alternative with
  | some nodes => { b with alternative := some (nodes.push n) }
  | none => { b with main := b.main.push n }

def beginAlternative (b : Body) : Body :=
  { b with alternative := some #[] }

/-- Empties the list to which nodes are added. -/
def clear (b : Body) : Body :=
  match b.alternative with
  | some _ => { b with alternative := some #[] }
  | none => { b with main := #[] }

/-- Notes that the closing tag has been met. -/
def close (b : Body) : Body :=
  { b with closed := true }

end Body

/-- The diagnosis for a tag that neither a block nor the registry knows. -/
def unexpectedTag (block : String) (delimiter : Option String) (tag : String) : Cause :=
  if tag == "else" then .unexpectedElse block
  else if tag == "end" then .bareEnd block delimiter
  else .unknownTag tag

/-- The name of the tag that closes a block, unless the block says otherwise. -/
def endNameOf (block : String) : String :=
  "end" ++ block

mutual

/-- How a block is read. -/
structure BlockRules where
  /-- The name of the block in diagnoses. -/
  name : String
  /-- The name of the tag that closes the block; without one only the end of the template does. -/
  delimiter : Option String := some (endNameOf name)
  /-- How the block goes on, with the body that it has so far, at a tag that the registry does not
  know. -/
  unknownTag : Site → Body → Except Error Reading := fun site _ =>
    .error (.atLine (unexpectedTag name delimiter site.name) site.line)
  /-- Whether the template may end inside the block, which was opened on the given line. -/
  unclosed : Nat → Except Error Unit := fun openedAt =>
    .error (.atLine (.unclosed name) openedAt)

/-- How a tag goes on being read. -/
inductive Reading where
  /-- The tag is complete. -/
  | done (node : Node)
  /-- The tag was one for the block in which it stands, which has this body from now on. -/
  | become (body : Body)
  /-- The tag is refused; the error is told the line of the token read last. -/
  | refuse (error : Nat → Error)
  /-- The tag takes tokens as they are.  After each it looks at all that it has taken, the latest
  first, and either takes another one or goes on; `exhausted` is how it goes on when there is none
  left to take. -/
  | tokens (resume : List Token → Option Reading) (exhausted : List Token → Reading)
  /-- The tag wants the nodes of a block, for which it holds a body of its own. -/
  | block (rules : BlockRules) (held : Body) (resume : Body → Reading)

end

/-- A block that reads no further at tags that the registry does not know only changes its body. -/
instance : Coe (Site → Body → Except Error Body) (Site → Body → Except Error Reading) where
  coe change site body := .become <$> change site body

abbrev Definition := Site → Reading

/-- The tags of a language by name. -/
structure Registry where
  /-- The definitions; of several with one name the first counts. -/
  entries : List (String × Definition) := []

namespace Registry

instance : EmptyCollection Registry := ⟨{}⟩

def find? (r : Registry) (name : String) : Option Definition :=
  r.entries.lookup name

def contains (r : Registry) (name : String) : Bool :=
  (r.find? name).isSome

def erase (r : Registry) (name : String) : Registry :=
  ⟨r.entries.filter (·.1 != name)⟩

def insert (r : Registry) (name : String) (d : Definition) : Registry :=
  ⟨(name, d) :: (r.erase name).entries⟩

theorem find?_erase (r : Registry) (name other : String) :
    (r.erase name).find? other = if other = name then none else r.find? other := by
  obtain ⟨entries⟩ := r
  simp only [find?, erase]
  induction entries with
  | nil => simp
  | cons entry rest ih =>
      obtain ⟨key, definition⟩ := entry
      by_cases hkey : key = name
      · subst hkey
        rw [List.filter_cons_of_neg (by simp), ih]
        by_cases hother : other = key
        · rw [if_pos hother, if_pos hother]
        · have hbeq : (other == key) = false := beq_false_of_ne hother
          simp only [if_neg hother, List.lookup_cons, hbeq]
      · rw [List.filter_cons_of_pos (by simpa using hkey), List.lookup_cons, List.lookup_cons, ih]
        by_cases hother : other = key
        · subst hother
          simp [hkey]
        · have hbeq : (other == key) = false := beq_false_of_ne hother
          simp only [hbeq]

theorem find?_insert (r : Registry) (name : String) (d : Definition) (other : String) :
    (r.insert name d).find? other = if other = name then some d else r.find? other := by
  change List.lookup other ((name, d) :: (r.erase name).entries) = _
  by_cases hother : other = name
  · rw [hother, List.lookup_cons_self, if_pos rfl]
  · have hbeq : (other == name) = false := beq_false_of_ne hother
    have herase := find?_erase r name other
    rw [if_neg hother] at herase ⊢
    rw [List.lookup_cons, hbeq]
    exact herase

/-- The names in ascending order. -/
def names (r : Registry) : List String :=
  (r.entries.map (·.1)).mergeSort (fun a b => decide (a ≤ b))

/-- A description of the registry: its names, quoted and in ascending order. -/
def inspect (r : Registry) : String :=
  "TagRegistry \x7b tags: [" ++ ", ".intercalate (r.names.map Text.quoted) ++ "] \x7d"

end Registry
end Liquid
