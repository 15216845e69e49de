import Mathlib.Data.List.AList

/-!
# Shared types

* `DataType` : the four kinds of Discogs dump, with `asStr` and `fromStr`;
* `Value` : a JSON document, objects as key-sorted entry lists (`serde_json` keeps a `BTreeMap`);
* `Map.get`, `Map.insert`, `Map.remove` : the map operations the extractor uses;
* `DataMessage` : a parsed record on its way to the broker;
* `ExtractionProgress` : the per-type record tally of one run.
-/

namespace DiscogsIngestion

inductive DataType where
  | artists
  | labels
  | masters
  | releases
  deriving DecidableEq, Repr

namespace DataType

/-- All data types, in the order in which a broadcast visits them. -/
def discogs : List DataType := [artists, labels, masters, releases]

def asStr : DataType → String
  | artists => "artists"
  | labels => "labels"
  | masters => "masters"
  | releases => "releases"

theorem asStr_injective : Function.Injective asStr := by
  intro a b h
  cases a <;> cases b <;> first | rfl | exact absurd h (by decide)

/-- ASCII lower case. No other character lower-cases to a letter of the four names. -/
def lowercase (s : String) : String := String.ofList (s.toList.map Char.toLower)

def fromStr (s : String) : Option DataType :=
  if lowercase s = "artists" then some artists
  else if lowercase s = "labels" then some labels
  else if lowercase s = "masters" then some masters
  else if lowercase s = "releases" then some releases
  else none

example : fromStr "Releases" = some releases := by decide

end DataType

/-! ## JSON -/

/-- A JSON number: an integer, or the text of any other number. -/
inductive Number where
  | integer (n : Int)
  | decimal (text : String)
  deriving DecidableEq, Repr

def Number.toString : Number → String
  | integer n => n.repr
  | decimal text => text

/-- A JSON value. The entries of an object stand in the order of their keys. -/
inductive Value where
  | null
  | bool (b : Bool)
  | number (n : Number)
  | string (s : String)
  | array (items : List Value)
  | object (entries : List (String × Value))
  deriving Repr

abbrev Map := List (String × Value)

namespace Value

def asStr : Value → Option String
  | string s => some s
  | _ => none

def isObject : Value → Bool
  | object _ => true
  | _ => false

end Value

namespace Map

def get (key : String) : Map → Option Value
  | [] => none
  | (k, v) :: rest => if k = key then some v else get key rest

def insert (key : String) (value : Value) : Map → Map
  | [] => [(key, value)]
  | (k, v) :: rest =>
    if k = key then (key, value) :: rest
    else if key < k then (key, value) :: (k, v) :: rest
    else (k, v) :: insert key value rest

def remove (key : String) (m : Map) : Map := m.filter fun entry => entry.1 ≠ key

def containsKey (key : String) (m : Map) : Bool := (get key m).isSome

theorem get_insert_self (key : String) (value : Value) (m : Map) :
    get key (insert key value m) = some value := by
  induction m with
  | nil => simp [insert, get]
  | cons entry rest ih =>
    obtain ⟨k, v⟩ := entry
    unfold insert
    split_ifs with hk hlt
    · simp [get]
    · simp [get]
    · simp [get, hk, ih]

theorem get_insert_of_ne {key other : String} (h : other ≠ key) (value : Value) (m : Map) :
    get other (insert key value m) = get other m := by
  induction m with
  | nil => simp [insert, get, h.symm]
  | cons entry rest ih =>
    obtain ⟨k, v⟩ := entry
    unfold insert
    split_ifs with hk hlt
    · subst hk
      simp [get, h.symm]
    · simp [get, h.symm]
    · simp [get, ih]

theorem insert_ne_nil (key : String) (value : Value) (m : Map) : insert key value m ≠ [] := by
  cases m with
  | nil => simp [insert]
  | cons entry rest =>
    unfold insert
    split_ifs <;> simp

end Map

/-! ## Messages -/

/-- What the XML writer is asked to write for a record kept as evidence. -/
inductive XmlOut where
  | start (name : String) (attributes : List (String × String))
  | text (s : String)
  | endTag (name : String)
  | empty (name : String)
  deriving DecidableEq, Repr

/-- Data message containing a parsed record. -/
structure DataMessage where
  id : String
  sha256 : String
  data : Value
  /-- Raw XML fragment for data quality inspection, never serialized. -/
  rawXml : Option (List XmlOut)
  deriving Repr

/-- Progress tracking for extraction. -/
structure ExtractionProgress where
  artists : Nat := 0
  labels : Nat := 0
  masters : Nat := 0
  releases : Nat := 0
  deriving DecidableEq, Repr

namespace ExtractionProgress

def add (p : ExtractionProgress) (dt : DataType) (count : Nat) : ExtractionProgress :=
  match dt with
  | .artists => { p with artists := p.artists + count }
  | .labels => { p with labels := p.labels + count }
  | .masters => { p with masters := p.masters + count }
  | .releases => { p with releases := p.releases + count }

def increment (p : ExtractionProgress) (dt : DataType) : ExtractionProgress := p.add dt 1

def get (p : ExtractionProgress) : DataType → Nat
  | .artists => p.artists
  | .labels => p.labels
  | .masters => p.masters
  | .releases => p.releases

theorem get_add (p : ExtractionProgress) (dt other : DataType) (count : Nat) :
    (p.add dt count).get other = p.get other + if other = dt then count else 0 := by
  cases dt <;> cases other <;> simp [add, get]

end ExtractionProgress

end DiscogsIngestion
