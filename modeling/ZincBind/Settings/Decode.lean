import ZincBind.Document.Characters
import ZincBind.Document.Node
import ZincBind.Document.TokenStream
import ZincBind.Settings.Basic

/-!
# ZincBind.Settings.Decode

Settings from a YAML document. The document is a mapping whose keys are field names and whose
values are scalars, taken by their text; a null leaves a field as it was. Entries with the key
`<<` merge other mappings in, and fields of the mapping itself win over merged ones.

Faults of the content are collected, all of them; a malformed document is one fault of its own.
-/

namespace ZincBind

open Document

/-! ## Fields -/

/-- The fields of the settings. -/
inductive Field where
  | crate
  | derive
  | modelParam
  | logLevel
deriving DecidableEq, Repr

/-- The key of a field. -/
def Field.key : Field → String
  | .crate => "crate"
  | .derive => "derive"
  | .modelParam => "model_param"
  | .logLevel => "log_level"

/-- The field with a key. -/
def Field.ofKey? (key : Bytes) : Option Field :=
  [Field.crate, .derive, .modelParam, .logLevel].find? fun f => utf8 f.key == key

/-- Set a field. -/
def Settings.set (s : Settings) (f : Field) (value : Bytes) : Settings :=
  match f with
  | .crate => { s with options := { s.options with crate := value } }
  | .derive => { s with options := { s.options with derive := value } }
  | .modelParam => { s with options := { s.options with modelParam := value } }
  | .logLevel => { s with logLevel := value }

/-! ## Faults -/

/-- A fault of a document's content. -/
inductive ContentFault where
  /-- A key that is no field. -/
  | unknownField (line : Nat) (key : Bytes)
  /-- A field that two different spellings of its key set. -/
  | repeatedField (line : Nat) (key : Bytes)
  /-- A key that stands twice in a mapping. -/
  | repeatedKey (line : Nat) (key : Bytes) (firstLine : Nat)
  /-- A node that is not what is wanted. -/
  | mismatch (line : Nat) (tag text : Bytes) (wanted : String)
deriving DecidableEq, Repr

/-- The name of the settings in messages. -/
def settingsName : String := "config.Config"

/-- The name of texts in messages. -/
def textName : String := "string"

/-- A text in a message: at most ten bytes, and the first seven of a longer one. -/
def excerpt (text : Bytes) : Bytes := if 10 < text.length then text.take 7 ++ utf8 "..." else text

/-- The fault in words. -/
def ContentFault.message : ContentFault → Bytes
  | .unknownField line key =>
    utf8 "line " ++ Bytes.decimal line ++ utf8 ": field " ++ key ++ utf8 " not found in type " ++
      utf8 settingsName
  | .repeatedField line key =>
    utf8 "line " ++ Bytes.decimal line ++ utf8 ": field " ++ key ++ utf8 " already set in type " ++
      utf8 settingsName
  | .repeatedKey line key firstLine =>
    utf8 "line " ++ Bytes.decimal line ++ utf8 ": mapping key " ++ key.quoted ++
      utf8 " already defined at line " ++ Bytes.decimal firstLine
  | .mismatch line tag text wanted =>
    utf8 "line " ++ Bytes.decimal line ++ utf8 ": cannot unmarshal " ++ tag ++
      (if tag = Tag.seq ∨ tag = Tag.map then []
       else utf8 " \x60" ++ excerpt text ++ utf8 "\x60") ++
      utf8 " into " ++ utf8 wanted

/-- Why settings cannot be had from a text. -/
inductive SettingsError where
  /-- The text is no document. -/
  | malformed
  /-- The document does not have the content of settings. -/
  | content (faults : List ContentFault)
  /-- A setting breaks its rule. -/
  | invalid (fault : SettingFault)
deriving DecidableEq, Repr

/-- The error in words. -/
def SettingsError.message : SettingsError → Bytes
  | .malformed => utf8 "invalid config: yaml: malformed document"
  | .content faults =>
    utf8 "invalid config: yaml: unmarshal errors:" ++
      faults.flatMap fun f => utf8 "\n  " ++ f.message
  | .invalid fault => utf8 "invalid config: " ++ fault.message

/-! ## Keys -/

/-- What makes two keys of a mapping the same: their kind and their text. -/
inductive KeyIdentity where
  | scalar (text : Bytes)
  | sequence
  | mapping
  | alias (name : Bytes)
deriving DecidableEq

/-- The identity of a key. -/
def keyIdentity : Node → KeyIdentity
  | .scalar _ _ text => .scalar text
  | .sequence .. => .sequence
  | .mapping .. => .mapping
  | .alias _ name _ => .alias name

/-- The text of a key's identity. -/
def KeyIdentity.text : KeyIdentity → Bytes
  | .scalar text => text
  | .alias name => name
  | _ => []

/-- One fault for every pair of equal keys. -/
def repeatedKeys : List Node → List ContentFault
  | [] => []
  | k :: ks =>
    (ks.filter fun j => keyIdentity j = keyIdentity k).map
      (fun j => .repeatedKey j.line (keyIdentity k).text k.line) ++ repeatedKeys ks

/-- Whether a key merges its value in. -/
def isMergeKey : Node → Bool
  | .scalar _ tag text => text == utf8 "<<" && tag == Tag.merge
  | _ => false

/-! ## Texts -/

/-- Reading a node as a text: the text, if there is one, and the faults; none if the document is
malformed. -/
def readText? (t : Tree) (n : Node) : Option (Option Bytes × List ContentFault) := do
  match ← t.target? n with
  | .scalar _ tag text =>
    match ← scalarText? tag text with
    | .null => some (none, [])
    | .text value => some (some value, [])
  | .sequence line tag _ => some (none, [.mismatch line tag [] textName])
  | .mapping line tag entries =>
    match repeatedKeys (entries.map (·.1)) with
    | [] => some (none, [.mismatch line tag [] textName])
    | faults => some (none, faults)
  | .alias .. => none

/-- The key as a text, if its type is text: keys of other types do not stop merged ones. -/
def textKey? (t : Tree) (n : Node) : Option Bytes :=
  match t.target? n with
  | some (.scalar _ tag text) =>
    if Tag.isChecked tag then none
    else
      match scalarText? tag text with
      | some (.text value) => some value
      | _ => none
  | _ => none

/-! ## Mappings -/

/-- What has been read so far. -/
structure Progress where
  /-- The settings. -/
  settings : Settings
  /-- The faults, in order. -/
  faults : List ContentFault
  /-- While merging, the keys that are settled. -/
  settled : Option (List Bytes)

/-- What has been read of one mapping. -/
structure MappingProgress extends Progress where
  /-- The fields the mapping has set. -/
  done : List Field
  /-- The value to merge in. -/
  merge : Option Node

/-- Read one entry of a mapping. -/
def readPair? (t : Tree) (p : MappingProgress) (entry : Node × Node) : Option MappingProgress := do
  let (key, value) := entry
  if isMergeKey key then return { p with merge := some value }
  let (name, faults) ← readText? t key
  let p := { p with faults := p.faults ++ faults }
  let some name := name | return p
  if p.settled.any (·.contains name) then return p
  let p := { p with settled := p.settled.map (name :: ·) }
  match Field.ofKey? name with
  | none => return { p with faults := p.faults ++ [.unknownField key.line name] }
  | some f =>
    if p.done.contains f then
      return { p with faults := p.faults ++ [.repeatedField key.line name] }
    let (text, faults) ← readText? t value
    return { p with
      settings := text.elim p.settings (p.settings.set f)
      faults := p.faults ++ faults
      done := f :: p.done }

/-- The mappings a merge value stands for: itself, what it is an alias of, or the items of a
sequence of these. -/
def mergeSources? (t : Tree) (value : Node) : Option (List (List (Node × Node))) :=
  let source? (n : Node) : Option (List (Node × Node)) :=
    match t.target? n with
    | some (.mapping _ _ entries) => some entries
    | _ => none
  match value with
  | .sequence _ _ items => items.mapM source?
  | n => (source? n).map fun entries => [entries]

/-- Read a mapping, then what it merges in. A mapping with equal keys is not read at all. A
mapping merged into itself never ends, which `fuel` finds out. -/
def readMapping? (t : Tree) : Nat → Progress → List (Node × Node) → Option Progress
  | 0, _, _ => none
  | fuel + 1, p, entries =>
    match repeatedKeys (entries.map (·.1)) with
    | [] => do
      let m ← entries.foldlM (readPair? t) ⟨p, [], none⟩
      match m.merge with
      | none => some m.toProgress
      | some value =>
        let settled := m.settled.getD (entries.filterMap fun (k, _) => textKey? t k)
        let sources ← mergeSources? t value
        let q ← sources.foldlM (readMapping? t fuel) { m.toProgress with settled := some settled }
        some { q with settled := if m.settled.isSome then q.settled else none }
    | faults => some { p with faults := p.faults ++ faults }

/-- Read a document over given settings. -/
def readTree? (t : Tree) (s : Settings) : Option (Settings × List ContentFault) :=
  match t.root with
  | .scalar line tag text => do
    match ← scalarText? tag text with
    | .null => some (s, [])
    | .text _ => some (s, [.mismatch line tag text settingsName])
  | .sequence line tag _ => some (s, [.mismatch line tag [] settingsName])
  | .mapping _ _ entries => do
    let p ← readMapping? t (t.size + 1) ⟨s, [], none⟩ entries
    some (p.settings, p.faults)
  | .alias .. => none

/-! ## Settings -/

namespace Settings

/-- The settings of a text laid over the standard ones, before they are checked. -/
def decode (text : Bytes) : Except SettingsError Settings :=
  match characters? text with
  | none => .error .malformed
  | some cs =>
    match Tree.ofTokens? (tokens cs) with
    | none => .error .malformed
    | some none => .ok standard
    | some (some t) =>
      match readTree? t standard with
      | none => .error .malformed
      | some (s, []) => .ok s
      | some (_, faults) => .error (.content faults)

/-- The settings of a text. -/
def parse (text : Bytes) : Except SettingsError Settings := do
  let s ← decode text
  match s.validate with
  | .ok () => return s
  | .error fault => throw (.invalid fault)

end Settings

end ZincBind
