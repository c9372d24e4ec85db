import Liquid.Tag

/-!
# Reading a template

Tokens are read one at a time by a machine with a stack: the block that is being filled, and for
each block around it the tag there that waits for its body.  A closing tag hands the innermost body
to the tag that waits for it; at the end of the template the blocks are finished from the innermost
outward.
-/

namespace Liquid

structure OpenBlock where
  rules : BlockRules
  /-- The line of the token that opened the block. -/
  openedAt : Nat
  body : Body

/-- A block in which a tag waits for the body of a block inside it. -/
structure WaitingBlock where
  block : OpenBlock
  resume : Body → Reading

/-- A tag that takes tokens as they are, with those it has taken, the latest first. -/
structure TokenRequest where
  taken : List Token
  resume : List Token → Option Reading
  exhausted : List Token → Reading

/-- Where a reading stands. -/
structure ReaderState where
  /-- The innermost block. -/
  block : OpenBlock
  /-- The blocks around it, the nearest first. -/
  outer : List WaitingBlock
  /-- The tag that takes the next token as it is, if there is one. -/
  request : Option TokenRequest
  /-- The line of the token read last. -/
  line : Nat
  /-- How many blocks are open, with those in which the reading began. -/
  depth : Nat

/-- What reading a token leads to: the reading goes on, or its outermost block is closed, and so
many blocks are open around it. -/
inductive Progress where
  | reading (s : ReaderState)
  | closed (body : Body) (depth : Nat)

/-- Tokens to be read, and how many blocks are open around them. -/
structure Reader where
  tokens : TokenStream
  depth : Nat := 0

/-- Names that are never looked up in the registry. -/
def isReserved (name : String) : Bool :=
  name == "else" || name == "end"

namespace OpenBlock

def push (b : OpenBlock) (n : Node) : OpenBlock :=
  { b with body := b.body.push n }

def become (b : OpenBlock) (body : Body) : OpenBlock :=
  { b with body := body }

end OpenBlock

namespace ReaderState

def push (s : ReaderState) (n : Node) : ReaderState :=
  { s with block := s.block.push n }

/-- Opens a block inside the innermost one, unless too many are open. -/
def enter (options : Options) (s : ReaderState) (rules : BlockRules) (held : Body)
    (resume : Body → Reading) : Except Error ReaderState :=
  if options.maxDepth < s.depth then .error (.atLine (.tooDeep options.maxDepth) s.line)
  else .ok
    { s with
      block := ⟨rules, s.line, held.clear⟩
      outer := ⟨s.block, resume⟩ :: s.outer
      depth := s.depth + 1 }

/-- Does what the reading of a tag in the innermost block asks for. -/
def proceed (options : Options) (s : ReaderState) : Reading → Except Error ReaderState
  | .done node => .ok (s.push node)
  | .become body => .ok { s with block := s.block.become body }
  | .refuse error => .error (error s.line)
  | .tokens resume exhausted => .ok { s with request := some ⟨[], resume, exhausted⟩ }
  | .block rules held resume => s.enter options rules held resume

def close (options : Options) (s : ReaderState) : Except Error Progress :=
  let body := s.block.body.close
  match s.outer with
  | [] => .ok (.closed body (s.depth - 1))
  | waiting :: outer =>
    let s := { s with block := waiting.block, outer := outer, depth := s.depth - 1 }
    .reading <$> s.proceed options (waiting.resume body)

/-- Reads a well-formed tag: the closing tag of the innermost block, or else a tag of the registry,
or else one that the block may know. -/
def readTag (registry : Registry) (options : Options) (s : ReaderState) (name markup : String) :
    Except Error Progress :=
  let site : Site := ⟨name, markup, s.line, options⟩
  if s.block.rules.delimiter == some name then s.close options
  else
    match if isReserved name then none else registry.find? name with
    | some definition => .reading <$> s.proceed options (definition site)
    | none =>
      match s.block.rules.unknownTag site s.block.body with
      | .ok reading => .reading <$> s.proceed options reading
      | .error e => .error e

/-- Reads a token that no tag takes as it is. -/
def readToken (registry : Registry) (options : Options) (s : ReaderState) (t : Token) :
    Except Error Progress :=
  match t.kind with
  | .tag =>
    match t.tag? with
    | some (name, markup) => s.readTag registry options name markup
    | none => .error (.atLine (.unterminatedTag t.text) s.line)
  | .variable =>
    match t.expression? with
    | some markup => .ok (.reading (s.push (.expression markup)))
    | none => .error (.atLine (.unterminatedVariable t.text) s.line)
  | .empty => .ok (.reading s)
  | .text => .ok (.reading (s.push (.text t.text)))

/-- Reads a token: hands it to the tag that takes it as it is, or else reads it as a part of the
innermost block. -/
def step (registry : Registry) (options : Options) (s : ReaderState) (t : Token) :
    Except Error Progress :=
  let s := { s with line := t.line }
  match s.request with
  | some request =>
    let taken := t :: request.taken
    match request.resume taken with
    | some reading => .reading <$> { s with request := none }.proceed options reading
    | none => .ok (.reading { s with request := some { request with taken := taken } })
  | none => s.readToken registry options t

/-! ### The end of the template -/

/-- Completes the reading of a tag in a block where no token is left: a request for tokens is told
so, and a block that is opened ends at once. -/
def settle (options : Options) (depth line : Nat) (block : OpenBlock) :
    Reading → Except Error OpenBlock
  | .done node => .ok (block.push node)
  | .become body => .ok (block.become body)
  | .refuse error => .error (error line)
  | .tokens _ exhausted => settle options depth line block (exhausted [])
  | .block rules held resume =>
    if options.maxDepth < depth then .error (.atLine (.tooDeep options.maxDepth) line)
    else
      match rules.unclosed line with
      | .ok _ => settle options depth line block (resume held.clear)
      | .error e => .error e

/-- Finishes the innermost block where no token is left, and then the blocks around it. -/
def finishBlocks (options : Options) (line : Nat) :
    OpenBlock → List WaitingBlock → Nat → Except Error (Body × Nat)
  | block, [], depth =>
    match block.rules.unclosed block.openedAt with
    | .ok _ => .ok (block.body, depth - 1)
    | .error e => .error e
  | block, waiting :: outer, depth =>
    match block.rules.unclosed block.openedAt with
    | .ok _ =>
      match settle options (depth - 1) line waiting.block (waiting.resume block.body) with
      | .ok block => finishBlocks options line block outer (depth - 1)
      | .error e => .error e
    | .error e => .error e

/-- Finishes a reading where no token is left: the body of the outermost block, and how many blocks
are open around it. -/
def finish (options : Options) (s : ReaderState) : Except Error (Body × Nat) :=
  match s.request with
  | none => finishBlocks options s.line s.block s.outer s.depth
  | some request =>
    match settle options s.depth s.line s.block (request.exhausted request.taken) with
    | .ok block => finishBlocks options s.line block s.outer s.depth
    | .error e => .error e

/-- Reads tokens until the outermost block is closed or no token is left: its body, and what is left
to read after it. -/
def run (registry : Registry) (options : Options) :
    ReaderState → List Token → Except Error (Body × Reader)
  | s, [] =>
    match s.finish options with
    | .ok (body, depth) => .ok (body, ⟨⟨[], s.line⟩, depth⟩)
    | .error e => .error e
  | s, t :: rest =>
    match s.step registry options t with
    | .ok (.reading s) => run registry options s rest
    | .ok (.closed body depth) => .ok (body, ⟨⟨rest, t.line⟩, depth⟩)
    | .error e => .error e

end ReaderState

/-- Reads a block up to its closing tag, or up to the end of the tokens if the block allows it.
The body that is passed in gives up the nodes that it holds. -/
def Reader.readBlock (registry : Registry) (options : Options) (rules : BlockRules) (held : Body)
    (r : Reader) : Except Error (Body × Reader) :=
  if options.maxDepth < r.depth then
    .error (.atLine (.tooDeep options.maxDepth) r.tokens.line)
  else
    let s : ReaderState :=
      { block := ⟨rules, r.tokens.line, held.clear⟩
        outer := []
        request := none
        line := r.tokens.line
        depth := r.depth + 1 }
    s.run registry options r.tokens.unread

/-- The outermost block of a template: no tag closes it, and it may end with the template. -/
def documentRules : BlockRules where
  name := "document"
  delimiter := none
  unclosed _ := .ok ()

/-- Reads all tokens as a template. -/
def parse (registry : Registry) (options : Options) (tokens : TokenStream) :
    Except Error (List Node) :=
  match Reader.readBlock registry options documentRules {} ⟨tokens, 0⟩ with
  | .ok (body, _) => .ok body.main.toList
  | .error e => .error e

end Liquid
