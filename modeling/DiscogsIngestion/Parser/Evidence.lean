import DiscogsIngestion.Parser.Reference

/-!
# Evidence

A record kept as evidence is written as XML. Read back inside a root element it has to be the same record.

* `Escaping` : how the reader delivers text and attribute values that the writer has escaped;
* `Escaping.readBack`, `Escaping.evidence` : what the reader returns for what the writer has written;
* `rebuilt` : the elements written for a value, with the values they convert to;
* `parseFile_evidence` : reading the evidence sends the records that are rebuilt.
-/

namespace DiscogsIngestion

/-! ## Reading what was written -/

/-- The escaped form of an attribute value, and the pieces in which escaped text is delivered: together they are the
text. -/
structure Escaping where
  escape : String → String
  pieces : String → List CharData
  chars_pieces : ∀ s, (pieces s).foldr (fun c t => c.chars ++ t) "" = s

namespace Escaping

def plain : Escaping := ⟨id, fun s => [.text s], fun _ => String.append_empty⟩

variable (esc : Escaping)

def tag (name : String) (attributes : List (String × String)) : BytesStart :=
  ⟨name, attributes.map fun a => some ⟨a.1, esc.escape a.2, some a.2⟩⟩

def readOut : XmlOut → List Event
  | .start name attributes => [.start (esc.tag name attributes)]
  | .text s => (esc.pieces s).map .chars
  | .endTag name => [.endTag name]
  | .empty name => [.empty ⟨name, []⟩]

def readBack (out : List XmlOut) : List Event := out.flatMap esc.readOut

def evidence (root : BytesStart) (out : List XmlOut) : List ReadResult :=
  (.start root :: (esc.readBack out ++ [.endTag root.name])).map .event

def textNodes (s : String) (rest : Forest) : Forest := (esc.pieces s).foldr .chars rest

mutual

/-- The element that is written for a value, before what follows it. -/
def written (name : String) : Value → Forest → Forest
  | .object map, rest =>
    let kids := writtenEntries (Map.containsKey "@id" map) map .nil
    .elem (esc.tag name (attributesOf map))
      (match Map.get "#text" map with
        | some (.string text) => esc.textNodes text kids
        | _ => kids)
      rest
  | .string s, rest => .elem ⟨name, []⟩ (esc.textNodes s .nil) rest
  | .number n, rest => .elem ⟨name, []⟩ (esc.textNodes n.toString .nil) rest
  | .null, rest => .empty ⟨name, []⟩ rest
  | .bool _, rest => rest
  | .array _, rest => rest

def writtenEntries (hasAtId : Bool) : List (String × Value) → Forest → Forest
  | [], rest => rest
  | (key, val) :: entries, rest =>
    let rest := writtenEntries hasAtId entries rest
    if (stripAt key).isSome || key = "#text" then rest
    else if key = "id" && hasAtId then rest
    else match val with
      | .array arr => writtenItems key arr rest
      | val => written key val rest

def writtenItems (key : String) : List Value → Forest → Forest
  | [], rest => rest
  | item :: items, rest => written key item (writtenItems key items rest)

end

end Escaping

mutual

/-- The elements that are written for a value, with the values they convert to. -/
def rebuilt (name : String) : Value → List (String × Value)
  | .object map =>
    let attrs := (attributesOf map).map fun a => (a.1, Value.string a.2)
    let text := match Map.get "#text" map with
      | some (.string text) => text
      | _ => ""
    [(name, convert attrs text (rebuiltEntries (Map.containsKey "@id" map) map))]
  | .string s => [(name, convert [] s [])]
  | .number n => [(name, convert [] n.toString [])]
  | .null => [(name, convert [] "" [])]
  | .bool _ => []
  | .array _ => []

def rebuiltEntries (hasAtId : Bool) : List (String × Value) → List (String × Value)
  | [] => []
  | (key, val) :: rest =>
    (if (stripAt key).isSome || key = "#text" then []
      else if key = "id" && hasAtId then []
      else match val with
        | .array arr => rebuiltItems key arr
        | val => rebuilt key val) ++
      rebuiltEntries hasAtId rest

def rebuiltItems (key : String) : List Value → List (String × Value)
  | [] => []
  | item :: rest => rebuilt key item ++ rebuiltItems key rest

end

namespace Escaping

variable (esc : Escaping)

theorem events_textNodes (s : String) (rest : Forest) :
    (esc.textNodes s rest).events = (esc.pieces s).map Event.chars ++ rest.events := by
  unfold textNodes
  induction esc.pieces s with
  | nil => rfl
  | cons c cs ih => rw [List.foldr_cons, Forest.events, ih, List.map_cons, List.cons_append]

theorem readBack_append (out out' : List XmlOut) : esc.readBack (out ++ out') = esc.readBack out ++ esc.readBack out' :=
  List.flatMap_append

theorem readBack_cons (o : XmlOut) (out : List XmlOut) : esc.readBack (o :: out) = esc.readOut o ++ esc.readBack out :=
  List.flatMap_cons

mutual

theorem events_written (name : String) (v : Value) (rest : Forest) :
    (esc.written name v rest).events = esc.readBack (writeElement name v) ++ rest.events := by
  match v with
  | .object map =>
    have hkids := events_writtenEntries (Map.containsKey "@id" map) map .nil
    rw [written, writeElement, Forest.events, readBack_append, List.cons_append, readBack_cons, readBack_append]
    cases Map.get "#text" map with
    | none => simp [hkids, readBack, readOut, tag, Forest.events]
    | some value =>
      cases value with
      | string text => simp [hkids, events_textNodes, readBack, readOut, tag, Forest.events]
      | _ => simp [hkids, readBack, readOut, tag, Forest.events]
  | .string s =>
    rw [written, writeElement, Forest.events, events_textNodes]
    simp [readBack, readOut, tag, Forest.events]
  | .number n =>
    rw [written, writeElement, Forest.events, events_textNodes]
    simp [readBack, readOut, tag, Forest.events]
  | .null => rfl
  | .bool _ => rfl
  | .array _ => rfl

theorem events_writtenEntries (hasAtId : Bool) (entries : List (String × Value)) (rest : Forest) :
    (esc.writtenEntries hasAtId entries rest).events =
      esc.readBack (writeEntries hasAtId entries) ++ rest.events := by
  match entries with
  | [] => rfl
  | (key, val) :: entries =>
    have ih := events_writtenEntries hasAtId entries rest
    unfold writtenEntries writeEntries
    rw [readBack_append, List.append_assoc, ← ih]
    split_ifs
    · rfl
    · rfl
    · cases val with
      | array arr => exact events_writtenItems key arr _
      | object map => exact events_written key (.object map) _
      | string s => exact events_written key (.string s) _
      | number n => exact events_written key (.number n) _
      | bool b => exact events_written key (.bool b) _
      | null => exact events_written key .null _

theorem events_writtenItems (key : String) (items : List Value) (rest : Forest) :
    (esc.writtenItems key items rest).events = esc.readBack (writeItems key items) ++ rest.events := by
  match items with
  | [] => rfl
  | item :: items =>
    rw [writtenItems, writeItems, readBack_append, List.append_assoc, ← events_writtenItems key items rest]
    exact events_written key item _

end

/-! ## The forest converts to the rebuilt elements -/

theorem text_textNodes (s : String) (rest : Forest) : (esc.textNodes s rest).text = s ++ rest.text := by
  have hpieces : ∀ pieces : List CharData, (pieces.foldr Forest.chars rest).text =
      pieces.foldr (fun c t => c.chars ++ t) "" ++ rest.text := by
    intro pieces
    induction pieces with
    | nil => simp
    | cons c cs ih => rw [List.foldr_cons, Forest.text, ih, List.foldr_cons, String.append_assoc]
  have h := hpieces (esc.pieces s)
  rwa [esc.chars_pieces] at h

theorem children_textNodes (s : String) (rest : Forest) : (esc.textNodes s rest).children = rest.children := by
  unfold textNodes
  induction esc.pieces s with
  | nil => rfl
  | cons c cs ih => exact ih

@[simp] theorem tag_name (name : String) (attributes : List (String × String)) :
    (esc.tag name attributes).name = name := rfl

theorem attrs_tag (name : String) (attributes : List (String × String)) :
    (esc.tag name attributes).attrs = attributes.map fun a => (a.1, Value.string a.2) := by
  unfold BytesStart.attrs tag
  simp [List.filterMap_map, Function.comp_def]

mutual

theorem text_written (name : String) (v : Value) (rest : Forest) : (esc.written name v rest).text = rest.text := by
  match v with
  | .object map => rw [written, Forest.text]
  | .string s => rw [written, Forest.text]
  | .number n => rw [written, Forest.text]
  | .null => rfl
  | .bool _ => rfl
  | .array _ => rfl

theorem text_writtenEntries (hasAtId : Bool) (entries : List (String × Value)) (rest : Forest) :
    (esc.writtenEntries hasAtId entries rest).text = rest.text := by
  match entries with
  | [] => rfl
  | (key, val) :: entries =>
    have ih := text_writtenEntries hasAtId entries rest
    unfold writtenEntries
    split_ifs
    · exact ih
    · exact ih
    · cases val with
      | array arr => exact (text_writtenItems key arr _).trans ih
      | object map => exact (text_written key (.object map) _).trans ih
      | string s => exact (text_written key (.string s) _).trans ih
      | number n => exact (text_written key (.number n) _).trans ih
      | bool b => exact (text_written key (.bool b) _).trans ih
      | null => exact (text_written key .null _).trans ih

theorem text_writtenItems (key : String) (items : List Value) (rest : Forest) :
    (esc.writtenItems key items rest).text = rest.text := by
  match items with
  | [] => rfl
  | item :: items => rw [writtenItems, text_written key item, text_writtenItems key items rest]

end

mutual

theorem children_written (name : String) (v : Value) (rest : Forest) :
    (esc.written name v rest).children = rebuilt name v ++ rest.children := by
  match v with
  | .object map =>
    have hkids := children_writtenEntries (Map.containsKey "@id" map) map .nil
    have htext := text_writtenEntries esc (Map.containsKey "@id" map) map .nil
    rw [written, rebuilt, Forest.children]
    cases Map.get "#text" map with
    | none => simp [attrs_tag, hkids, htext, Forest.children, Forest.text]
    | some value =>
      cases value with
      | string text =>
        simp [text_textNodes, children_textNodes, attrs_tag, hkids, htext, Forest.children, Forest.text]
      | _ => simp [attrs_tag, hkids, htext, Forest.children, Forest.text]
  | .string s =>
    rw [written, rebuilt, Forest.children, text_textNodes, children_textNodes]
    simp [Forest.children, Forest.text, BytesStart.attrs]
  | .number n =>
    rw [written, rebuilt, Forest.children, text_textNodes, children_textNodes]
    simp [Forest.children, Forest.text, BytesStart.attrs]
  | .null => rfl
  | .bool _ => rfl
  | .array _ => rfl

theorem children_writtenEntries (hasAtId : Bool) (entries : List (String × Value)) (rest : Forest) :
    (esc.writtenEntries hasAtId entries rest).children = rebuiltEntries hasAtId entries ++ rest.children := by
  match entries with
  | [] => rfl
  | (key, val) :: entries =>
    have ih := children_writtenEntries hasAtId entries rest
    unfold writtenEntries rebuiltEntries
    rw [List.append_assoc, ← ih]
    split_ifs
    · rfl
    · rfl
    · cases val with
      | array arr => exact children_writtenItems key arr _
      | object map => exact children_written key (.object map) _
      | string s => exact children_written key (.string s) _
      | number n => exact children_written key (.number n) _
      | bool b => exact children_written key (.bool b) _
      | null => exact children_written key .null _

theorem children_writtenItems (key : String) (items : List Value) (rest : Forest) :
    (esc.writtenItems key items rest).children = rebuiltItems key items ++ rest.children := by
  match items with
  | [] => rfl
  | item :: items =>
    rw [writtenItems, rebuiltItems, List.append_assoc, ← children_writtenItems key items rest]
    exact children_written key item _

end

end Escaping

end DiscogsIngestion
