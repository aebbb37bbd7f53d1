import DurableFlow.Yaml.Token

/-!
# Nodes

The document that tokens form: scalars, sequences and mappings, some of which have
anchors, and aliases that stand for them. An alias goes by the number that its anchor had
when the alias was met, and means the last node that was given this number.
-/

namespace DurableFlow

namespace Yaml

/-- A node of a document. -/
inductive Node where
  | aliased (number : Nat)
  | scalar (tag : Option String) (text : String) (isPlain : Bool)
  | sequence (tag : Option String) (items : List Node)
  | mapping (tag : Option String) (entries : List (Node × Node))
deriving Repr

namespace Node

/-- The node of which nothing is written. -/
def empty : Node := .scalar none "" true

mutual

/-- The marks that a node is made of: one for a scalar or an alias, and one for either end
of a collection. -/
def weight : Node → Nat
  | aliased _ => 1
  | scalar .. => 1
  | sequence _ items => 2 + weightOfItems items
  | mapping _ entries => 2 + weightOfEntries entries

def weightOfItems : List Node → Nat
  | [] => 0
  | n :: rest => n.weight + weightOfItems rest

def weightOfEntries : List (Node × Node) → Nat
  | [] => 0
  | (k, v) :: rest => k.weight + v.weight + weightOfEntries rest

end

end Node

/-- A document. -/
structure Document where
  root : Node
  /-- What the numbers of aliases mean. -/
  anchored : List (Nat × Node)

/-- The anchors that have been met. -/
structure Anchors where
  /-- The number that a name stands for now. -/
  names : List (String × Nat) := []
  /-- The number of each node with an anchor, the node that started last first. -/
  numbers : List (Nat × Nat) := []
  /-- The nodes with anchors that are complete, by the order of their starts. -/
  nodes : List (Nat × Node) := []

namespace Anchors

/-- A node with an anchor starts. A new anchor is numbered by the count of names. -/
def start (a : Anchors) (name : String) : Nat × Anchors :=
  let number := a.names.length
  let place := a.numbers.length
  (place,
    { a with
      names := (name, number) :: a.names.filter (·.1 != name)
      numbers := (number, place) :: a.numbers })

def finish (a : Anchors) (place : Nat) (node : Node) : Anchors :=
  { a with nodes := (place, node) :: a.nodes }

/-- What the numbers of aliases mean. -/
def anchored (a : Anchors) : List (Nat × Node) :=
  a.numbers.filterMap fun entry => (a.nodes.lookup entry.2).map (entry.1, ·)

end Anchors

/-- The state of forming nodes: the tokens that are left and the anchors so far. -/
structure Forming where
  tokens : List Token
  anchors : Anchors := {}
  /-- What the handles of tags stand for. -/
  handles : List (String × String)

namespace Forming

def next (s : Forming) : Forming := { s with tokens := s.tokens.drop 1 }

def sees (s : Forming) (wanted : Token) : Bool := s.tokens.head? == some wanted

/-- Whether one of several tokens is next. -/
def seesAny (s : Forming) (wanted : List Token) : Bool :=
  s.tokens.head?.any fun token => token ∈ wanted

/-- The properties of a node. -/
structure Properties where
  anchor : Option String := none
  tag : Option String := none

/-- The tag that a handle and a suffix stand for. -/
def tag? (s : Forming) (handle suffix : String) : Option String :=
  if handle.isEmpty then some suffix else (s.handles.lookup handle).map (· ++ suffix)

/-- The properties that are next: an anchor and a tag in either order. -/
def properties (s : Forming) : Option (Properties × Forming) :=
  match s.tokens with
  | .anchor name :: .tag handle suffix :: rest =>
    (s.tag? handle suffix).map fun tag => (⟨some name, some tag⟩, { s with tokens := rest })
  | .tag handle suffix :: .anchor name :: rest =>
    (s.tag? handle suffix).map fun tag => (⟨some name, some tag⟩, { s with tokens := rest })
  | .anchor name :: rest => some (⟨some name, none⟩, { s with tokens := rest })
  | .tag handle suffix :: rest =>
    (s.tag? handle suffix).map fun tag => (⟨none, some tag⟩, { s with tokens := rest })
  | _ => some ({}, s)

/-- The properties of a node have been met: where it counts among the nodes with anchors. -/
def start (s : Forming) (p : Properties) : Option Nat × Forming :=
  match p.anchor with
  | none => (none, s)
  | some name =>
    let (place, anchors) := s.anchors.start name
    (some place, { s with anchors })

/-- A node is complete. -/
def finish (s : Forming) (place : Option Nat) (node : Node) : Node × Forming :=
  match place with
  | none => (node, s)
  | some place => (node, { s with anchors := s.anchors.finish place node })

/-- The tag of a scalar; the mark for no special type is none. -/
def scalarTag (tag : Option String) : Option String := tag.filter (· != "!")

/-- Where a node may stand, which decides what may start it. -/
inductive Position where
  | flow
  | block
  /-- In a mapping of a block, whose sequences need not be indented. -/
  | mapping
deriving DecidableEq

mutual

/-- The next node. -/
def node (fuel : Nat) (position : Position) (s : Forming) : Option (Node × Forming) :=
  match fuel with
  | 0 => none
  | fuel + 1 =>
    match s.tokens with
    | .aliased name :: rest =>
      (s.anchors.names.lookup name).map fun number => (.aliased number, { s with tokens := rest })
    | _ => do
      let (p, s) ← s.properties
      let (place, after) := s.start p
      match s.tokens with
      | .scalar text isPlain :: _ =>
        some (after.next.finish place (.scalar (scalarTag p.tag) text isPlain))
      | .openSequence :: _ =>
        let (items, s) ← flowItems fuel true after.next
        some (s.finish place (.sequence p.tag items))
      | .openMapping :: _ =>
        let (entries, s) ← flowEntries fuel true after.next
        some (s.finish place (.mapping p.tag entries))
      | .item :: _ =>
        if position = .mapping then
          let (items, s) ← looseItems fuel after
          some (s.finish place (.sequence p.tag items))
        else unwritten p place after
      | .blockSequence :: _ =>
        if position = .flow then unwritten p place after
        else
          let (items, s) ← blockItems fuel after.next
          some (s.finish place (.sequence p.tag items))
      | .blockMapping :: _ =>
        if position = .flow then unwritten p place after
        else
          let (entries, s) ← blockEntries fuel after.next
          some (s.finish place (.mapping p.tag entries))
      | _ => unwritten p place after

/-- A node of which nothing but its properties is written. -/
def unwritten (p : Properties) (place : Option Nat) (s : Forming) : Option (Node × Forming) :=
  if p.anchor.isNone && p.tag.isNone then none
  else some (s.finish place (.scalar (scalarTag p.tag) "" true))

/-- The next node, or an empty one if a token follows that cannot start one. -/
def nodeUnless (fuel : Nat) (position : Position) (ends : List Token) (s : Forming) :
    Option (Node × Forming) :=
  match fuel with
  | 0 => none
  | fuel + 1 => if s.seesAny ends then some (.empty, s) else node fuel position s

/-- The items of a sequence of a block. -/
def blockItems (fuel : Nat) (s : Forming) : Option (List Node × Forming) :=
  match fuel with
  | 0 => none
  | fuel + 1 =>
    if s.sees .item then do
      let (n, s) ← nodeUnless fuel .block [.item, .blockEnd] s.next
      let (rest, s) ← blockItems fuel s
      some (n :: rest, s)
    else if s.sees .blockEnd then some ([], s.next)
    else none

/-- The items of a sequence that is not indented within its mapping. -/
def looseItems (fuel : Nat) (s : Forming) : Option (List Node × Forming) :=
  match fuel with
  | 0 => none
  | fuel + 1 =>
    if s.sees .item then do
      let (n, s) ← nodeUnless fuel .block [.item, .key, .value, .blockEnd] s.next
      let (rest, s) ← looseItems fuel s
      some (n :: rest, s)
    else some ([], s)

/-- The entries of a mapping of a block. -/
def blockEntries (fuel : Nat) (s : Forming) : Option (List (Node × Node) × Forming) :=
  match fuel with
  | 0 => none
  | fuel + 1 =>
    if s.sees .key then do
      let (k, s) ← nodeUnless fuel .mapping [.key, .value, .blockEnd] s.next
      let (v, s) ←
        if s.sees .value then nodeUnless fuel .mapping [.key, .value, .blockEnd] s.next
        else some (.empty, s)
      let (rest, s) ← blockEntries fuel s
      some ((k, v) :: rest, s)
    else if s.sees .blockEnd then some ([], s.next)
    else none

/-- The items of a flow sequence; an item may be a mapping of one entry. -/
def flowItems (fuel : Nat) (first : Bool) (s : Forming) : Option (List Node × Forming) :=
  match fuel with
  | 0 => none
  | fuel + 1 =>
    if s.sees .closeSequence then some ([], s.next)
    else if !first && !s.sees .comma then none
    else
      let s := if first then s else s.next
      if s.sees .closeSequence then some ([], s.next)
      else do
        let (n, s) ← if s.sees .key then pair fuel s.next else node fuel .flow s
        let (rest, s) ← flowItems fuel false s
        some (n :: rest, s)

/-- A mapping of one entry within a flow sequence. A token that cannot start the key is
passed over. -/
def pair (fuel : Nat) (s : Forming) : Option (Node × Forming) :=
  match fuel with
  | 0 => none
  | fuel + 1 => do
    let (k, s) ←
      if s.seesAny [.value, .comma, .closeSequence] then some (.empty, s.next)
      else node fuel .flow s
    let (v, s) ←
      if s.sees .value then nodeUnless fuel .flow [.comma, .closeSequence] s.next
      else some (.empty, s)
    some (.mapping none [(k, v)], s)

/-- The entries of a flow mapping; a node without a colon is a key without a value. -/
def flowEntries (fuel : Nat) (first : Bool) (s : Forming) :
    Option (List (Node × Node) × Forming) :=
  match fuel with
  | 0 => none
  | fuel + 1 =>
    if s.sees .closeMapping then some ([], s.next)
    else if !first && !s.sees .comma then none
    else
      let s := if first then s else s.next
      if s.sees .closeMapping then some ([], s.next)
      else do
        let (entry, s) ←
          if s.sees .key then do
            let (k, s) ← nodeUnless fuel .flow [.value, .comma, .closeMapping] s.next
            let (v, s) ←
              if s.sees .value then nodeUnless fuel .flow [.comma, .closeMapping] s.next
              else some (.empty, s)
            some ((k, v), s)
          else do
            let (k, s) ← node fuel .flow s
            some ((k, .empty), s)
        let (rest, s) ← flowEntries fuel false s
        some (entry :: rest, s)

end

/-- The handles that every document knows. -/
def knownHandles : List (String × String) :=
  [("!", "!"), ("!!", "tag:yaml.org,2002:")]

/-- The directives before a document. A version may be given once, and each handle too. -/
def directives (versioned : Bool) (given : List (String × String)) :
    List Token → Option (List (String × String) × List Token)
  | .version major minor :: rest =>
    if versioned || major != 1 || (minor != 1 && minor != 2) then none
    else directives true given rest
  | .tagPrefix handle expansion :: rest =>
    if (given.lookup handle).isSome then none
    else directives versioned (given ++ [(handle, expansion)]) rest
  | tokens => some (given, tokens)

def isDirective : Token → Bool
  | .version .. | .tagPrefix .. => true
  | _ => false

/-- Whether nothing is written of the document that starts here. -/
def isEmptyDocument : List Token → Bool
  | [] => true
  | token :: _ => isDirective token || token ∈ [Token.documentStart, Token.documentEnd]

/-- The document that tokens form, behind its directives. -/
def root (handles : List (String × String)) (isExplicit : Bool) (tokens : List Token) :
    Option (Document × List Token) :=
  if isExplicit && isEmptyDocument tokens then some (⟨.empty, []⟩, tokens)
  else
    (node (8 * tokens.length + 8) .block { tokens, handles }).map fun (n, s) =>
      (⟨n, s.anchors.anchored⟩, s.tokens)

end Forming

/-- The one document of a text, an empty text having an empty one. -/
def document? (text : String) : Option Document := do
  let tokens := (← tokens? text).toList
  if tokens.isEmpty then some ⟨.empty, []⟩
  else
    let isExplicit := tokens.head?.any fun token =>
      Forming.isDirective token || token == .documentStart
    let (given, tokens) ← if isExplicit then Forming.directives false [] tokens
      else some ([], tokens)
    let tokens ←
      match isExplicit, tokens with
      | false, tokens => some tokens
      | true, .documentStart :: rest => some rest
      | true, _ => none
    let (document, rest) ← Forming.root (given ++ Forming.knownHandles) isExplicit tokens
    if rest.all (· == .documentEnd) then some document else none

end Yaml

end DurableFlow
