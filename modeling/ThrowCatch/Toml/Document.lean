import ThrowCatch.Text.Utf8
import ThrowCatch.Toml.Scalar

/-!
TOML documents. Tables are built while the text is read, and a table or key
may be written once only: `Mark` remembers which names have been opened by a
header or closed for good by an inline value.
-/

namespace ThrowCatch.Toml

abbrev Entries := List (String × Value)

inductive Flag
  | opened | closed
  deriving DecidableEq, Repr

/-- A remark on a name; a deep one also holds for all names below it. -/
structure Mark where
  key : List String
  flag : Flag
  deep : Bool
  deriving DecidableEq, Repr

def marked (marks : List Mark) (key : List String) (flag : Flag) : Bool :=
  marks.any fun m => m.flag == flag && (m.key == key ||
    (m.deep && m.key.isPrefixOf key))

/-- Changes the table at the end of a path, making the tables that are
missing. In a list of tables the last one is meant, where `lists` allows
it. -/
def change (lists : Bool) (f : Entries → Option Entries) : List String → Entries → Option Entries
  | [], t => f t
  | k :: ks, t =>
    match Value.field? t k with
    | none => (change lists f ks []).map fun u => Value.put t k (.table u)
    | some (.table u) => (change lists f ks u).map fun u => Value.put t k (.table u)
    | some (.list items) =>
      match lists, items.getLast? with
      | true, some (.table u) =>
        (change lists f ks u).map fun u => Value.put t k (.list (items.dropLast ++ [.table u]))
      | _, _ => none
    | some _ => none

def addNew (key : String) (v : Value) (t : Entries) : Option Entries :=
  if (Value.field? t key).isSome then none else some (t ++ [(key, v)])

def isBareKeyChar (c : Char) : Bool :=
  c.isAlphanum || c == '-' || c == '_'

def keyPart? (cs : List Char) : Result String :=
  match cs with
  | [] => none
  | c :: rest =>
    if c == '"' then basicFrom [] (rest.length + 1) rest
    else if c == apostrophe then literal? rest
    else if isBareKeyChar c then
      some (String.ofList (cs.takeWhile isBareKeyChar), cs.dropWhile isBareKeyChar)
    else none

/-- A key of one or more parts with dots between them. -/
def key? : Nat → List Char → Result (List String)
  | 0, _ => none
  | fuel + 1, cs =>
    (keyPart? cs).bind fun (part, cs) =>
      match skipSpace cs with
      | '.' :: cs => (key? fuel (skipSpace cs)).map fun (parts, cs) => (part :: parts, cs)
      | cs => some ([part], cs)

def isContainer : Value → Bool
  | .list _ => true
  | .table _ => true
  | _ => false

def keyEquals? (fuel : Nat) (cs : List Char) : Result (List String) :=
  (key? fuel cs).bind fun (key, cs) =>
    match cs with
    | '=' :: cs => some (key, skipSpace cs)
    | _ => none

mutual

def value? : Nat → List Char → Result Value
  | 0, _ => none
  | fuel + 1, cs =>
    match cs with
    | [] => none
    | '"' :: _ => (string? cs).map fun (s, cs) => (.str s, cs)
    | 't' :: 'r' :: 'u' :: 'e' :: cs => some (.bool true, cs)
    | 'f' :: 'a' :: 'l' :: 's' :: 'e' :: cs => some (.bool false, cs)
    | '[' :: cs =>
      (skipLines fuel cs).bind fun cs =>
        match cs with
        | ']' :: cs => some (.list [], cs)
        | cs => items? [] fuel cs
    | '\x7b' :: cs =>
      match skipSpace cs with
      | '\x7d' :: cs => some (.table [], cs)
      | cs => inline? [] [] fuel cs
    | c :: _ =>
      if c == apostrophe then (string? cs).map fun (s, cs) => (.str s, cs)
      else
        match moment? cs with
        | some found => found.map fun (m, cs) => (.moment m, cs)
        | none =>
          match based? cs with
          | some found => some found
          | none =>
            match decimal? cs with
            | some found => some found
            | none => special? cs

/-- The items of an array from the first one on. -/
def items? (acc : List Value) : Nat → List Char → Result Value
  | 0, _ => none
  | fuel + 1, cs =>
    match value? fuel cs with
    | none => none
    | some (v, cs) =>
      match skipLines fuel cs with
      | some (']' :: cs) => some (.list (v :: acc).reverse, cs)
      | some (',' :: cs) =>
        match skipLines fuel cs with
        | some (']' :: cs) => some (.list (v :: acc).reverse, cs)
        | some cs => items? (v :: acc) fuel cs
        | none => none
      | _ => none

/-- The entries of an inline table from the first one on. -/
def inline? (t : Entries) (marks : List Mark) : Nat → List Char → Result Value
  | 0, _ => none
  | fuel + 1, cs =>
    match keyEquals? fuel cs with
    | none => none
    | some (key, cs) =>
      match value? fuel cs with
      | none => none
      | some (v, cs) =>
        if marked marks key .closed then none
        else
          match change false (addNew (key.getLast?.getD "") v) key.dropLast t with
          | none => none
          | some t =>
            match skipSpace cs with
            | '\x7d' :: cs => some (.table t, cs)
            | ',' :: cs =>
              let marks := if isContainer v then ⟨key, .closed, true⟩ :: marks else marks
              inline? t marks fuel (skipSpace cs)
            | _ => none

end

/-- A document while it is read: its entries, the remarks on names, those that
take effect at the next header, and the header in force. -/
structure Draft where
  entries : Entries
  marks : List Mark
  pending : List Mark
  header : List String

def Draft.empty : Draft := ⟨[], [], [], []⟩

/-- The beginnings of a key that are neither empty nor all of it. -/
def properHeads (key : List String) : List (List String) :=
  (List.range key.length).filterMap fun i => if i = 0 then none else some (key.take i)

/-- A line with a key and a value. -/
def Draft.assign (d : Draft) (fuel : Nat) (cs : List Char) : Result Draft :=
  (keyEquals? fuel cs).bind fun (key, cs) =>
    (value? fuel cs).bind fun (v, cs) =>
      let heads := (properHeads key).map (d.header ++ ·)
      if heads.any fun k => marked d.marks k .opened then none
      else
        let parent := d.header ++ key.dropLast
        if !parent.isEmpty && marked d.marks parent .closed then none
        else
          (change true (addNew (key.getLast?.getD "") v) parent d.entries).map fun entries =>
            let marks :=
              if isContainer v then ⟨d.header ++ key, .closed, true⟩ :: d.marks else d.marks
            ({ d with
                entries := entries, marks := marks,
                pending := heads.map (⟨·, .opened, false⟩) ++ d.pending }, cs)

def Draft.openTable (d : Draft) (fuel : Nat) (cs : List Char) : Result Draft :=
  (key? fuel (skipSpace cs)).bind fun (key, cs) =>
    let marks := d.pending ++ d.marks
    if marked marks key .opened || marked marks key .closed then none
    else
      (change true some key d.entries).bind fun entries =>
        match cs with
        | ']' :: cs => some (⟨entries, ⟨key, .opened, false⟩ :: marks, [], key⟩, cs)
        | _ => none

/-- Adds an empty table to a list of tables, which may be new. -/
def addTable (key : String) (t : Entries) : Option Entries :=
  match Value.field? t key with
  | none => some (t ++ [(key, .list [.table []])])
  | some (.list items) => some (Value.put t key (.list (items ++ [.table []])))
  | some _ => none

/-- The header of one more table in a list of tables. The names below it are
free again. -/
def Draft.openItem (d : Draft) (fuel : Nat) (cs : List Char) : Result Draft :=
  (key? fuel (skipSpace cs)).bind fun (key, cs) =>
    let marks := d.pending ++ d.marks
    if marked marks key .closed then none
    else
      (change true (addTable (key.getLast?.getD "")) key.dropLast d.entries).bind fun entries =>
        match cs with
        | ']' :: ']' :: cs =>
          let kept := marks.filter fun m => !key.isPrefixOf m.key
          some (⟨entries, ⟨key, .opened, false⟩ :: kept, [], key⟩, cs)
        | _ => none

/-- One statement, without the comment and the line end after it. -/
def Draft.statement (d : Draft) (fuel : Nat) (cs : List Char) : Result Draft :=
  match cs with
  | '#' :: _ => some (d, cs)
  | '[' :: '[' :: cs => (d.openItem fuel cs).map fun (d, cs) => (d, skipSpace cs)
  | '[' :: cs => (d.openTable fuel cs).map fun (d, cs) => (d, skipSpace cs)
  | c :: _ =>
    if isBareKeyChar c || c == '"' || c == apostrophe then
      (d.assign fuel cs).map fun (d, cs) => (d, skipSpace cs)
    else none
  | [] => some (d, [])

/-- Reads statements, one a line, to the end of the text. -/
def Draft.readAll (d : Draft) : Nat → List Char → Option Draft
  | 0, _ => none
  | fuel + 1, cs =>
    match skipSpace cs with
    | [] => some d
    | '\n' :: cs => d.readAll fuel cs
    | cs =>
      match d.statement fuel cs with
      | none => none
      | some (d, cs) =>
        match skipComment cs with
        | some [] => some d
        | some ('\n' :: cs) => d.readAll fuel cs
        | _ => none

/-- A carriage return before a line feed is part of the line end. -/
def dropReturns : List Char → List Char
  | '\r' :: '\n' :: cs => '\n' :: dropReturns cs
  | c :: cs => c :: dropReturns cs
  | [] => []

/-- The entries of a document, or `none` when the text is not one. -/
def read? (text : String) : Option Entries :=
  let cs := dropReturns text.toList
  (Draft.empty.readAll (2 * cs.length + 2) cs).map (·.entries)

def readBytes? (bytes : ByteArray) : Option Entries :=
  (Text.decodeStrict? bytes).bind read?

end ThrowCatch.Toml
