import MachineTuning.Yaml.Node

namespace MachineTuning.Yaml

/-!
# From tokens to nodes

`Node.ofTokens?` reads the one document that a token list holds.  A node may be left out after a
dash, a key or a value; an absent scalar then stands in its place.  Each reader takes an
`Outlook`, the tokens that are left and the anchors seen so far, and an allowance for its
recursion that the number of tokens bounds.
-/

/-- What is left to read, and the anchors so far with their numbers. -/
structure Outlook where
  tokens : List Token
  anchors : List (List Char × Nat) := []

namespace Outlook

/-- The kind of the next token; behind the last the stream is over. -/
def kind (o : Outlook) : TokenKind :=
  match o.tokens with
  | token :: _ => token.kind
  | [] => .streamEnd

/-- The outlook behind the next token. -/
def drop (o : Outlook) : Outlook :=
  { o with tokens := o.tokens.drop 1 }

/-- The place where the next token starts. -/
def start (o : Outlook) : Mark :=
  match o.tokens with
  | token :: _ => token.start
  | [] => .start

/-- The place where the next token stops. -/
def stop (o : Outlook) : Mark :=
  match o.tokens with
  | token :: _ => token.stop
  | [] => .start

/-- A name put under a number; a number already there gives way. -/
def setNumber (name : List Char) (number : Nat) :
    List (List Char × Nat) → List (List Char × Nat)
  | [] => [(name, number)]
  | entry :: rest =>
    if entry.1 = name then (name, number) :: rest else entry :: setNumber name number rest

/-- An anchor gets the number of names seen so far. -/
def addAnchor (o : Outlook) (name : List Char) : Nat × Outlook :=
  (o.anchors.length, { o with anchors := setNumber name o.anchors.length o.anchors })

end Outlook

/-- The tag handles of a document with what they stand for. -/
abbrev TagHandles := List (List Char × List Char)

/-- The handles of every document. -/
def TagHandles.standard : TagHandles :=
  [(['!'], ['!']), (['!', '!'], "tag:yaml.org,2002:".toList)]

/-- The tag that a handle and the rest of a tag spell. -/
def TagHandles.tag? (handles : TagHandles) (handle rest : List Char) : Option String := do
  if handle.isEmpty then some (String.ofList rest)
  else some (String.ofList ((← handles.lookup handle) ++ rest))

namespace Node

/-- A tag, if one comes next. -/
def takeTag? (handles : TagHandles) (o : Outlook) : Option (Option String × Outlook) :=
  match o.kind with
  | .tag handle rest => do some (some (← handles.tag? handle rest), o.drop)
  | _ => some (none, o)

/-- An anchor, if one comes next. -/
def takeAnchor (o : Outlook) : Option Nat × Outlook :=
  match o.kind with
  | .anchor name =>
    let (number, o) := o.drop.addAnchor name
    (some number, o)
  | _ => (none, o)

/-- The anchor and the tag in front of a node, in either order. -/
def takeProperties? (handles : TagHandles) (o : Outlook) : Option (Properties × Outlook) := do
  let mark := o.start
  match takeAnchor o with
  | (some anchor, o) =>
    let (tag, o) ← takeTag? handles o
    some ({ mark, anchor := some anchor, tag }, o)
  | (none, o) =>
    let (tag, o) ← takeTag? handles o
    if tag.isSome then
      let (anchor, o) := takeAnchor o
      some ({ mark, anchor, tag }, o)
    else some ({ mark }, o)

/-- Whether nothing stands between a dash, key or colon of a block and this token. -/
def endsBlockPart : TokenKind → Bool
  | .key | .value | .blockEnd => true
  | _ => false

/-- Whether nothing stands between a comma, key or colon of brackets and this token. -/
def endsFlowPart (closing : TokenKind) (kind : TokenKind) : Bool :=
  kind = .flowEntry || kind = closing

mutual
/-- The node that comes next.  Block collections are allowed where `block` is set, and a sequence
    that is not indented where `indentless` is set. -/
def take? (handles : TagHandles) :
    Nat → (block indentless : Bool) → Outlook → Option (Node × Outlook)
  | 0, _, _, _ => none
  | fuel + 1, block, indentless, o =>
    match o.kind with
    | .alias name => do some (.alias o.start (← o.anchors.lookup name), o.drop)
    | _ => do
      let (props, o) ← takeProperties? handles o
      match o.kind with
      | .scalar style text => some (.scalar props style (String.ofList text), o.drop)
      | .flowSequenceStart =>
        let (items, o) ← takeFlowItems? handles fuel true o.drop
        some (.sequence props items, o)
      | .flowMappingStart =>
        let (members, o) ← takeFlowMembers? handles fuel true o.drop
        some (.mapping props members, o)
      | kind =>
        if indentless ∧ kind = .blockEntry then
          let (items, o) ← takeIndentlessItems? handles fuel o
          some (.sequence props items, o)
        else if block ∧ kind = .blockSequenceStart then
          let (items, o) ← takeBlockItems? handles fuel o.drop
          some (.sequence props items, o)
        else if block ∧ kind = .blockMappingStart then
          let (members, o) ← takeBlockMembers? handles fuel o.drop
          some (.mapping props members, o)
        -- A tag or an anchor is enough for a node.
        else if props.anchor.isSome ∨ props.tag.isSome then some (.scalar props .plain "", o)
        else none

/-- The items of a block sequence, up to its end. -/
def takeBlockItems? (handles : TagHandles) : Nat → Outlook → Option (List Node × Outlook)
  | 0, _ => none
  | fuel + 1, o =>
    match o.kind with
    | .blockEntry => do
      let mark := o.stop
      let o := o.drop
      let (item, o) ←
        if o.kind = .blockEntry ∨ o.kind = .blockEnd then some (absent mark, o)
        else take? handles fuel true false o
      let (items, o) ← takeBlockItems? handles fuel o
      some (item :: items, o)
    | .blockEnd => some ([], o.drop)
    | _ => none

/-- The items of a sequence that stands at the indentation of its mapping. -/
def takeIndentlessItems? (handles : TagHandles) : Nat → Outlook → Option (List Node × Outlook)
  | 0, _ => none
  | fuel + 1, o =>
    match o.kind with
    | .blockEntry => do
      let mark := o.stop
      let o := o.drop
      let (item, o) ←
        if o.kind = .blockEntry ∨ endsBlockPart o.kind then some (absent mark, o)
        else take? handles fuel true false o
      let (items, o) ← takeIndentlessItems? handles fuel o
      some (item :: items, o)
    | _ => some ([], o)

/-- The members of a block mapping, up to its end. -/
def takeBlockMembers? (handles : TagHandles) :
    Nat → Outlook → Option (List (Node × Node) × Outlook)
  | 0, _ => none
  | fuel + 1, o =>
    match o.kind with
    | .key => do
      let (key, o) ← takeBlockPart? handles fuel o
      let (value, o) ←
        if o.kind = .value then takeBlockPart? handles fuel o else some (absent o.start, o)
      let (members, o) ← takeBlockMembers? handles fuel o
      some ((key, value) :: members, o)
    | .blockEnd => some ([], o.drop)
    | _ => none

/-- The node behind a key or value token of a block mapping. -/
def takeBlockPart? (handles : TagHandles) : Nat → Outlook → Option (Node × Outlook)
  | 0, _ => none
  | fuel + 1, o =>
    if endsBlockPart o.drop.kind then some (absent o.stop, o.drop)
    else take? handles fuel true true o.drop

/-- The items between square brackets, up to the closing one. -/
def takeFlowItems? (handles : TagHandles) :
    Nat → (first : Bool) → Outlook → Option (List Node × Outlook)
  | 0, _, _ => none
  | fuel + 1, first, o => do
    if o.kind = .flowSequenceEnd then return ([], o.drop)
    -- A comma may also stand behind the last item.
    let o ← if first then some o else if o.kind = .flowEntry then some o.drop else none
    if o.kind = .flowSequenceEnd then return ([], o.drop)
    let (item, o) ←
      if o.kind = .key then takeFlowPair? handles fuel o else take? handles fuel false false o
    let (items, o) ← takeFlowItems? handles fuel false o
    return (item :: items, o)

/-- A single member between square brackets, which is a mapping of its own.  If the key is left
    out, the token in its place is passed over. -/
def takeFlowPair? (handles : TagHandles) : Nat → Outlook → Option (Node × Outlook)
  | 0, _ => none
  | fuel + 1, o => do
    let mark := o.start
    let o := o.drop
    let (key, o) ←
      if o.kind = .value ∨ endsFlowPart .flowSequenceEnd o.kind then some (absent o.stop, o.drop)
      else take? handles fuel false false o
    let (value, o) ← takeFlowValue? handles fuel .flowSequenceEnd o
    some (.mapping { mark } [(key, value)], o)

/-- The members between curly brackets, up to the closing one. -/
def takeFlowMembers? (handles : TagHandles) :
    Nat → (first : Bool) → Outlook → Option (List (Node × Node) × Outlook)
  | 0, _, _ => none
  | fuel + 1, first, o => do
    if o.kind = .flowMappingEnd then return ([], o.drop)
    -- A comma may also stand behind the last member.
    let o ← if first then some o else if o.kind = .flowEntry then some o.drop else none
    if o.kind = .flowMappingEnd then return ([], o.drop)
    let (member, o) ←
      if o.kind = .key then do
        let o := o.drop
        let (key, o) ←
          if o.kind = .value ∨ endsFlowPart .flowMappingEnd o.kind then some (absent o.start, o)
          else take? handles fuel false false o
        let (value, o) ← takeFlowValue? handles fuel .flowMappingEnd o
        some ((key, value), o)
      else do
        let (key, o) ← take? handles fuel false false o
        some ((key, absent o.start), o)
    let (members, o) ← takeFlowMembers? handles fuel false o
    return (member :: members, o)

/-- The value of a member between brackets, which may be left out with or without its colon. -/
def takeFlowValue? (handles : TagHandles) :
    Nat → (closing : TokenKind) → Outlook → Option (Node × Outlook)
  | 0, _, _ => none
  | fuel + 1, closing, o =>
    if o.kind = .value then
      if endsFlowPart closing o.drop.kind then some (absent o.drop.start, o.drop)
      else take? handles fuel false false o.drop
    else some (absent o.start, o)
end

/-! ### Documents -/

/-- The directives in front of a document: whether a version was given, and the tag handles.
    Each may be given once, and only two versions of the format are known. -/
def takeDirectives? : (version : Bool) → TagHandles → List Token → Option (TagHandles × List Token)
  | version, handles, token :: tokens =>
    match token.kind with
    | .versionDirective major minor =>
      if version ∨ major ≠ 1 ∨ (minor ≠ 1 ∧ minor ≠ 2) then none
      else takeDirectives? true handles tokens
    | .tagDirective handle expansion =>
      if (handles.lookup handle).isSome then none
      else takeDirectives? version (handles ++ [(handle, expansion)]) tokens
    | _ => some (handles, token :: tokens)
  | _, handles, [] => some (handles, [])

/-- Whether a token starts a document with directives or a marker. -/
def startsExplicitly : TokenKind → Bool
  | .versionDirective _ _ | .tagDirective _ _ | .documentStart => true
  | _ => false

/-- Whether a document is empty if this token follows its marker. -/
def endsDocument : TokenKind → Bool
  | .versionDirective _ _ | .tagDirective _ _ | .documentStart | .documentEnd | .streamEnd => true
  | _ => false

/-- The root of the first document, and the tokens behind it. -/
def takeDocument? (tokens : List Token) : Option (Node × Outlook) :=
  let o : Outlook := { tokens }
  -- Four steps for each token are enough.
  let fuel := 4 * tokens.length + 4
  if o.kind = .streamEnd then some (absent o.start, o)
  else if startsExplicitly o.kind then do
    let (handles, tokens) ← takeDirectives? false [] tokens
    let o : Outlook := { tokens }
    if o.kind ≠ .documentStart then none
    let o := o.drop
    if endsDocument o.kind then some (absent o.start, o)
    else take? (handles ++ .standard) fuel true false o
  else take? .standard fuel true false o

/-- The root of the one document that a token list holds.  Where there is none, an absent scalar
    stands at the end of the stream. -/
def ofTokens? (tokens : List Token) : Option Node := do
  let (node, o) ← takeDocument? tokens
  match o.tokens.dropWhile (·.kind = .documentEnd) with
  | [⟨.streamEnd, _, _⟩] => some node
  | _ => none

end Node

end MachineTuning.Yaml
