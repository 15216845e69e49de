import DiscogsIngestion.Lib.Table
import DiscogsIngestion.Record.Block

/-!
# The canonical media block

* `Media.Taxonomy` : what format names and descriptions mean, the families and the media;
* `MediaItem`, `MediaBlock` : the block;
* `flattenDescriptions`, `parseQty` : what is read of a format;
* `applyFormatEntry`, `applyDescription`, `finishItem`, `finishBlock` : the steps of the mapper;
* `mapDiscogsFormats`, `attachMediaBlock` : the mapper.
-/

namespace DiscogsIngestion

namespace Media

/-- How a family resolves to a medium: by the value of an attribute. -/
structure ResolveRule where
  «attribute» : String
  map : Table String String

structure FamilyDefinition where
  id : String
  resolve : Option ResolveRule

structure MediumDefinition where
  id : String
  family : String
  defaults : Map

structure FormatEntry where
  family : Option String := none
  medium : Option String := none
  variant : Option String := none
  container : Option String := none
  flag : Option String := none

/-- What a description means. -/
structure DescriptionRule where
  target : String
  value : Value

/-- The vocabulary indexed for lookup. -/
structure Taxonomy where
  taxonomyVersion : String
  families : Table String FamilyDefinition
  media : Table String MediumDefinition
  formats : Table String FormatEntry
  descriptions : Table String DescriptionRule

end Media

open Media

/-! ## The block -/

/-- The provider fields as received. -/
structure ItemSource where
  provider : String
  name : Option String
  descriptions : List String
  text : Option String
  deriving DecidableEq, Repr

/-- One medium. Its position and its number of tracks are not known from this provider. -/
structure MediaItem where
  family : Option String := none
  medium : Option String := none
  qty : Nat := 1
  sizeInches : Option Number := none
  speedRpm : Option Number := none
  channels : Option String := none
  codec : Option String := none
  variants : List String := []
  appearance : List String := []
  source : ItemSource
  deriving DecidableEq, Repr

structure MediaBlock where
  taxonomyVersion : String
  items : List MediaItem := []
  families : List String := []
  releaseKind : Option String := none
  traits : List String := []
  edition : List String := []
  packaging : Option String := none
  container : Option String := none
  flags : List String := []
  unmappedFormats : List String := []
  unmappedDescriptions : List String := []
  deriving DecidableEq, Repr

def Value.asNumber : Value → Option Number
  | number n => some n
  | _ => none

namespace MediaItem

/-- Set a medium attribute only when the source has not already stated it. -/
def fillAttribute (item : MediaItem) (name : String) (value : Value) : MediaItem :=
  if name = "size_inches" then { item with sizeInches := item.sizeInches.or value.asNumber }
  else if name = "speed_rpm" then { item with speedRpm := item.speedRpm.or value.asNumber }
  else if name = "channels" then { item with channels := item.channels.or value.asStr }
  else if name = "codec" then { item with codec := item.codec.or value.asStr }
  else item

/-- The attribute a family resolves a medium by. -/
def attributeKey (item : MediaItem) (name : String) : Option String :=
  if name = "size_inches" then item.sizeInches.map Number.toString
  else if name = "speed_rpm" then item.speedRpm.map Number.toString
  else if name = "channels" then item.channels
  else if name = "codec" then item.codec
  else none

end MediaItem

/-- Item attributes a description rule may target directly. -/
def itemAttributes : List String := ["size_inches", "speed_rpm", "channels", "codec"]

/-! ## Input -/

def descriptionStrings : Value → List String
  | .array items => items.filterMap Value.asStr
  | .string s => [s]
  | _ => []

mutual

def flattenDescriptions : Value → List String
  | .object entries => flattenNested entries
  | value => descriptionStrings value

def flattenNested : List (String × Value) → List String
  | [] => []
  | (key, nested) :: rest => if key = "description" then flattenDescriptions nested else flattenNested rest

end

/-- Read the leading integer of a string, ignoring what follows. -/
def parseLeadingInteger (text : String) : Option Int :=
  let (negative, rest) := match (trimStart text).toList with
    | '-' :: rest => (true, rest)
    | '+' :: rest => (false, rest)
    | rest => (false, rest)
  let digits := rest.takeWhile Char.isDigit
  if digits = [] ∨ 2 ^ 63 ≤ digitsValue digits then none
  else some (if negative then -(digitsValue digits : Int) else digitsValue digits)

/-- Read `qty`. Anything that is not a whole number of at least one counts as a single unit. -/
def parseQty (value : Option Value) : Nat :=
  let text := match value with
    | none | some .null => "1"
    | some (.string text) => text
    | some (.number n) => n.toString
    | some (.bool flag) => if flag then "true" else "false"
    -- The text of an array or an object begins with a bracket.
    | some (.array _) => "["
    | some (.object _) => "\x7b"
  match (parseLeadingInteger text).filter (1 ≤ ·) with
  | some qty => qty.toNat
  | none => 1

/-! ## The mapper -/

/-- Apply a format-name entry, with the item when the entry names a medium. -/
def applyFormatEntry (block : MediaBlock) (entry : FormatEntry) (item : MediaItem) : MediaBlock × Option MediaItem :=
  let block := { block with container := entry.container.or block.container, flags := block.flags ++ entry.flag.toList }
  if entry.family.isNone ∧ entry.medium.isNone then (block, none)
  else
    (block, some { item with
      medium := entry.medium.or item.medium
      family := entry.family.or item.family
      variants := item.variants ++ entry.variant.toList })

/-- Route one description onto its target. -/
def applyDescription (state : MediaBlock × Option MediaItem) (rule : DescriptionRule) :
    MediaBlock × Option MediaItem :=
  let (block, item) := state
  if rule.target = "ignore" then state
  else if rule.target ∈ itemAttributes then (block, item.map (·.fillAttribute rule.target rule.value))
  else match rule.value.asStr with
    | none => state
    | some value =>
      if rule.target = "variant" then (block, item.map fun i => { i with variants := i.variants ++ [value] })
      else if rule.target = "appearance" then
        (block, item.map fun i => { i with appearance := i.appearance ++ [value] })
      else if rule.target = "trait" then ({ block with traits := block.traits ++ [value] }, item)
      else if rule.target = "edition" then ({ block with edition := block.edition ++ [value] }, item)
      else if rule.target = "flag" then ({ block with flags := block.flags ++ [value] }, item)
      else if rule.target = "release_kind" then ({ block with releaseKind := block.releaseKind.or (some value) }, item)
      else if rule.target = "packaging" then ({ block with packaging := block.packaging.or (some value) }, item)
      else if rule.target = "container" then ({ block with container := block.container.or (some value) }, item)
      else state

namespace Media

variable (taxonomy : Taxonomy)

/-- The family of the item's medium, unless it has one. -/
def resolveFamily (item : MediaItem) : MediaItem :=
  match item.medium, item.family with
  | some medium, none =>
    match taxonomy.media.lookup medium with
    | some definition => { item with family := some definition.family }
    | none => item
  | _, _ => item

def resolveMedium (item : MediaItem) : MediaItem :=
  match item.medium, item.family with
  | none, some family =>
    let resolved := do
      let definition ← taxonomy.families.lookup family
      let resolve ← definition.resolve
      let key ← item.attributeKey resolve.attribute
      resolve.map.lookup key
    { item with medium := some (resolved.getD (family ++ "_unspecified")) }
  | _, _ => item

def fillDefaults (item : MediaItem) : MediaItem :=
  match item.medium.bind taxonomy.media.lookup with
  | some definition => definition.defaults.foldl (fun item e => item.fillAttribute e.1 e.2) item
  | none => item

/-- Resolve the item's medium and family, fill the medium's defaults, and order its lists. -/
def finishItem (item : MediaItem) : MediaItem :=
  let item := fillDefaults taxonomy (resolveMedium taxonomy (resolveFamily taxonomy item))
  { item with variants := sortedUnique item.variants, appearance := sortedUnique item.appearance }

/-- Route one description, or keep it as unmapped. -/
def routeDescription (state : MediaBlock × Option MediaItem) (description : String) : MediaBlock × Option MediaItem :=
  match taxonomy.descriptions.lookup description with
  | some rule => applyDescription state rule
  | none => ({ state.1 with unmappedDescriptions := state.1.unmappedDescriptions ++ [description] }, state.2)

/-- One format. Its descriptions apply also when its name yields no item. -/
def mapFormat (block : MediaBlock) : Value → MediaBlock
  | .object format =>
    let name := (Map.get "name" format).bind Value.asStr
    let descriptions := match Map.get "descriptions" format with
      | some value => flattenDescriptions value
      | none => []
    let text := (Map.get "text" format).bind Value.asStr
    let (block, item) := match name.bind taxonomy.formats.lookup with
      | none => ({ block with unmappedFormats := block.unmappedFormats ++ name.toList }, none)
      | some entry =>
        let (block, item) := applyFormatEntry block entry { source := ⟨"discogs", name, descriptions, text⟩ }
        (block, item.map fun i => { i with qty := parseQty (Map.get "qty" format) })
    let (block, item) := descriptions.foldl (routeDescription taxonomy) (block, item)
    { block with items := block.items ++ (item.map (finishItem taxonomy)).toList }
  | _ => block

def finishBlock (block : MediaBlock) : MediaBlock :=
  { block with
    families := sortedUnique (block.items.filterMap MediaItem.family)
    traits := sortedUnique block.traits
    edition := sortedUnique block.edition
    flags := sortedUnique block.flags
    unmappedFormats := sortedUnique block.unmappedFormats
    unmappedDescriptions := sortedUnique block.unmappedDescriptions }

/-- Map a normalized `formats` list onto the canonical media block. -/
def mapDiscogsFormats (formats : Option Value) : MediaBlock :=
  finishBlock ((entriesOf formats).foldl (mapFormat taxonomy) { taxonomyVersion := taxonomy.taxonomyVersion })

end Media

/-! ## The block as JSON -/

def MediaItem.toValue (item : MediaItem) : Value :=
  .record [
    ("family", .optional item.family),
    ("medium", .optional item.medium),
    ("qty", .nat item.qty),
    ("size_inches", .optionalNumber item.sizeInches),
    ("speed_rpm", .optionalNumber item.speedRpm),
    ("channels", .optional item.channels),
    ("codec", .optional item.codec),
    ("variants", .strings item.variants),
    ("appearance", .strings item.appearance),
    ("position", .null),
    ("track_count", .null),
    ("source", .record [
      ("provider", .string item.source.provider),
      ("name", .optional item.source.name),
      ("descriptions", .strings item.source.descriptions),
      ("text", .optional item.source.text)])]

def MediaBlock.toValue (block : MediaBlock) : Value :=
  .record [
    ("taxonomy_version", .string block.taxonomyVersion),
    ("items", .array (block.items.map MediaItem.toValue)),
    ("families", .strings block.families),
    ("release_kind", .optional block.releaseKind),
    ("traits", .strings block.traits),
    ("edition", .strings block.edition),
    ("packaging", .optional block.packaging),
    ("container", .optional block.container),
    ("flags", .strings block.flags),
    ("unmapped", .record [
      ("formats", .strings block.unmappedFormats),
      ("descriptions", .strings block.unmappedDescriptions)])]

/-- The block is added beside the list. -/
def attachMediaBlock (taxonomy : Taxonomy) : Value → Value
  | .object map => .object (Map.insert "media" (mapDiscogsFormats taxonomy (Map.get "formats" map)).toValue map)
  | record => record

theorem MediaItem.toValue_ordered (item : MediaItem) : item.toValue.Ordered := by
  have hsource : Value.Ordered (.record [("provider", .string item.source.provider),
      ("name", .optional item.source.name), ("descriptions", .strings item.source.descriptions),
      ("text", .optional item.source.text)]) := Value.record_ordered (by simp)
  apply Value.record_ordered
  simp [hsource]

theorem MediaBlock.toValue_ordered (block : MediaBlock) : block.toValue.Ordered := by
  have hitems := Value.array_map_ordered MediaItem.toValue_ordered block.items
  have hunmapped : Value.Ordered (.record [("formats", .strings block.unmappedFormats),
      ("descriptions", .strings block.unmappedDescriptions)]) := Value.record_ordered (by simp)
  apply Value.record_ordered
  simp [hitems, hunmapped]

end DiscogsIngestion
