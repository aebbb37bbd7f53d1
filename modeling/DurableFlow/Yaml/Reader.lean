import DurableFlow.Source.Decode
import DurableFlow.Yaml.Node

/-!
# YAML as a source

A document as a source, aliases being replaced by what they stand for. Plain scalars
leave their types open, quoted ones are texts, and the tags of the standard types settle
the type of a scalar. There is an end to how deeply values may be nested and to how often
aliases may be followed.
-/

namespace DurableFlow

namespace Yaml

/-- The value of a scalar whose tag names a standard type, if it is of the type. -/
def typed? (tag text : String) : Option Source :=
  let int : Option Source :=
    (Source.Word.int? text).map fun i => if Number.InRange (.int i) then .num (.int i) else .huge
  let float : Option Source :=
    (Source.Word.float? text).map fun x =>
      match x with
      | some x => .num (.float x)
      | none => .null
  match tag with
  | "tag:yaml.org,2002:bool" =>
    some (((Source.Word.bool? text).map Source.bool).getD (.broken .unsuitable))
  | "tag:yaml.org,2002:int" => some (int.getD (.broken .unsuitable))
  | "tag:yaml.org,2002:float" => some (float.getD (.broken .unsuitable))
  | "tag:yaml.org,2002:null" =>
    some (if Source.Word.isNull text then .null else .broken .unsuitable)
  | _ => none

/-- A tag of the text's own makes no difference to those who know what they ask for. -/
def tagged (tag : Option String) (value : Source) : Source :=
  if tag.any (·.startsWith "!") then .tagged value else value

/-- A scalar as a source. -/
def scalar (tag : Option String) (text : String) (isPlain : Bool) : Source :=
  match tag with
  | none => if isPlain then .plain text else .str text
  | some t =>
    match typed? t text with
    | some value => .typed text value
    | none => tagged tag (if t.startsWith "!" && isPlain then .plain text else .str text)

/-- The levels to which values may be nested. -/
def maxDepth : Nat := 128

/-- What an alias stands for. -/
def Document.target (d : Document) : Node → Option Node
  | .aliased number => d.anchored.lookup number
  | node => some node

/-- The text of the key of an entry, and how often an alias was followed for it. -/
def Document.keyText? (d : Document) (key : Node) : Option String :=
  match d.target key with
  | some (.scalar _ text _) => some text
  | _ => none

def isAlias : Node → Bool
  | .aliased _ => true
  | _ => false

mutual

/-- A node as a source, as long as aliases may be followed; and how often they still may. -/
def Document.expand (d : Document) (levels jumps : Nat) (node : Node) : Source × Nat :=
  match d.target node with
  | none => (.broken .unsuitable, jumps)
  | some target =>
    if isAlias node && jumps = 0 then (.broken .unsuitable, 0)
    else
      let jumps := if isAlias node then jumps - 1 else jumps
      match target, levels with
      | .scalar tag text isPlain, _ => (scalar tag text isPlain, jumps)
      | .sequence tag items, levels + 1 =>
        let (items, jumps) := d.expandItems levels jumps items
        (tagged tag (.arr items none), jumps)
      | .mapping tag entries, levels + 1 =>
        let (fields, stop, jumps) := d.expandEntries levels jumps entries
        (tagged tag (.obj fields stop), jumps)
      | _, _ => (.broken .unsuitable, jumps)
termination_by (levels, 0)

def Document.expandItems (d : Document) (levels jumps : Nat) (items : List Node) :
    List Source × Nat :=
  match items with
  | [] => ([], jumps)
  | item :: rest =>
    let (v, jumps) := d.expand levels jumps item
    let (vs, jumps) := d.expandItems levels jumps rest
    (v :: vs, jumps)
termination_by (levels, items.length + 1)

def Document.expandEntries (d : Document) (levels jumps : Nat) (entries : List (Node × Node)) :
    List (String × Source) × Option TextFault × Nat :=
  match entries with
  | [] => ([], none, jumps)
  | (key, value) :: rest =>
    match d.keyText? key with
    | none => ([], some .unsuitable, jumps)
    | some name =>
      if isAlias key && jumps = 0 then ([], some .unsuitable, 0)
      else
        let jumps := if isAlias key then jumps - 1 else jumps
        let (v, jumps) := d.expand levels jumps value
        let (fields, stop, jumps) := d.expandEntries levels jumps rest
        ((name, v) :: fields, stop, jumps)
termination_by (levels, entries.length + 1)

end

/-- A document as a source. -/
def Document.toSource (d : Document) : Source :=
  (d.expand maxDepth (100 * d.root.weight) d.root).1

/-- The source that a text holds, if it is the text of one document. -/
def read? (text : String) : Option Source := (document? text).map Document.toSource

end Yaml

end DurableFlow
