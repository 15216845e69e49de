import DiscogsIngestion.Text
import DiscogsIngestion.Types

/-!
# Elements under construction

* `BytesStart`, `Reference`, `Event` : what the XML reader delivers;
* `ElementContext` : an element being parsed, with `withAttributes`, `addChild` and `intoValue`;
* `ElementContext.pushChars` : the effect of a text, CDATA or reference event on its text;
* `reconstructXml` : the XML fragment kept as evidence for a record.
-/

namespace DiscogsIngestion

/-! ## Reader events -/

/-- An attribute of a start tag: the raw value, and the unescaped one if its escapes are well formed. -/
structure Attr where
  key : String
  raw : String
  normalized : Option String
  deriving DecidableEq, Repr

/-- A start tag. `none` among the attributes is one that the attribute iterator reports as an error. -/
structure BytesStart where
  name : String
  attributes : List (Option Attr)
  deriving DecidableEq, Repr

/-- A reference event: a character reference with its resolution (`none` is a malformed one), or an
entity reference by name. -/
inductive Reference where
  | charRef (resolved : Option (Option Char))
  | entity (name : String)
  deriving DecidableEq, Repr

/-- Character data inside an element. -/
inductive CharData where
  | text (s : String)
  | cdata (s : String)
  | generalRef (r : Reference)
  deriving DecidableEq, Repr

/-- An event of the reader; `misc` is a comment, a declaration, a processing instruction or a
document type. The end of the stream is the end of the list of events. -/
inductive Event where
  | start (e : BytesStart)
  | empty (e : BytesStart)
  | endTag (name : String)
  | chars (c : CharData)
  | misc
  deriving DecidableEq, Repr

/-! ## Element contexts -/

/-- An element being parsed with its attributes and children. -/
structure ElementContext where
  attributes : Map := []
  children : Map := []
  textContent : String := ""
  deriving Repr

namespace ElementContext

/-- A new context for a start tag. A value with malformed escapes is kept raw. -/
def withAttributes (e : BytesStart) : ElementContext :=
  { attributes := (e.attributes.filterMap id).foldl
      (fun m attr => Map.insert attr.key (.string (attr.normalized.getD attr.raw)) m) [] }

def prefixed (attributes : Map) : Map :=
  attributes.foldl (fun m entry => Map.insert ("@" ++ entry.1) entry.2 m) []

/-- Convert this element to a JSON value, combining attributes, text and children. -/
def intoValue (ctx : ElementContext) : Value :=
  let result := prefixed ctx.attributes
  let hasText := !isBlank ctx.textContent
  if ctx.children.isEmpty && result.isEmpty && hasText then
    -- just text content, returned as a string
    .string ctx.textContent
  else
    let result := if hasText then Map.insert "#text" (.string ctx.textContent) result else result
    let result := ctx.children.foldl (fun m entry => Map.insert entry.1 entry.2 m) result
    if result.isEmpty && hasText then .string ctx.textContent
    else if result.isEmpty then .null
    else .object result

/-- Add a child element: the second child of a name turns the first into an array. -/
def addChild (ctx : ElementContext) (childName : String) (childValue : Value) : ElementContext :=
  match Map.get childName ctx.children with
  | some (.array arr) =>
    { ctx with children := Map.insert childName (.array (arr ++ [childValue])) ctx.children }
  | some old => { ctx with children := Map.insert childName (.array [old, childValue]) ctx.children }
  | none => { ctx with children := Map.insert childName childValue ctx.children }

/-- The text that a reference stands for. An unknown entity is kept as written. -/
def referenceText : Reference → String
  | .charRef (some (some ch)) => String.ofList [ch]
  | .charRef (some none) => "\uFFFD"
  | .charRef none => "\uFFFD"
  | .entity name =>
    if name = "amp" then "&"
    else if name = "lt" then "<"
    else if name = "gt" then ">"
    else if name = "apos" then "'"
    else if name = "quot" then "\""
    else "&" ++ name ++ ";"

/-- The effect of a text, CDATA or reference event. -/
def pushChars (ctx : ElementContext) : CharData → ElementContext
  | .text s => { ctx with textContent := ctx.textContent ++ s }
  | .cdata s => { ctx with textContent := ctx.textContent ++ s }
  | .generalRef r => { ctx with textContent := ctx.textContent ++ referenceText r }

end ElementContext

/-! ## Evidence -/

/-- The attribute name of an `@` key. -/
def stripAt (key : String) : Option String :=
  match key.toList with
  | '@' :: rest => some (String.ofList rest)
  | _ => none

theorem stripAt_eq_some_iff {key name : String} : stripAt key = some name ↔ key = "@" ++ name := by
  unfold stripAt
  constructor
  · intro h
    split at h
    · next rest hkey =>
      obtain rfl := Option.some.inj h
      apply String.toList_injective
      simp [hkey]
    · exact nomatch h
  · rintro rfl
    rw [String.toList_append]
    simp

theorem stripAt_append (name : String) : stripAt ("@" ++ name) = some name := stripAt_eq_some_iff.2 rfl

def attributesOf (map : Map) : List (String × String) :=
  map.filterMap fun entry =>
    match stripAt entry.1, entry.2 with
    | some name, .string s => some (name, s)
    | _, _ => none

mutual

def writeElement (name : String) : Value → List XmlOut
  | .object map =>
    .start name (attributesOf map) ::
      (match Map.get "#text" map with
        | some (.string text) => [.text text]
        | _ => []) ++
      writeEntries (Map.containsKey "@id" map) map ++ [.endTag name]
  | .string s => [.start name [], .text s, .endTag name]
  | .number n => [.start name [], .text n.toString, .endTag name]
  | .null => [.empty name]
  | .bool _ => []
  | .array _ => []

/-- The child elements of an object: attributes, text and, beside `@id`, the `id` child are skipped. -/
def writeEntries (hasAtId : Bool) : List (String × Value) → List XmlOut
  | [] => []
  | (key, val) :: rest =>
    (if (stripAt key).isSome || key = "#text" then []
      else if key = "id" && hasAtId then []
      else match val with
        | .array arr => writeItems key arr
        | val => writeElement key val) ++
      writeEntries hasAtId rest

def writeItems (key : String) : List Value → List XmlOut
  | [] => []
  | item :: rest => writeElement key item ++ writeItems key rest

end

def reconstructXml (elementName : String) (value : Value) : List XmlOut := writeElement elementName value

end DiscogsIngestion
