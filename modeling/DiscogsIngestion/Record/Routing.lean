import DiscogsIngestion.Record.MediaTaxonomy

/-!
# Where the mapper routes formats and descriptions

* `stated`, `unknown` : what descriptions state for a target, and those that the vocabulary does not know;
* `describeItem`, `describeBlock` : what they make of the item of their entry and of the release;
* `itemOf` : the item of an entry, which no other entry has a part in;
* `Routed`, `mapDiscogsFormats_exact` : the block of a list of formats.
-/

namespace DiscogsIngestion.Media

variable (taxonomy : Taxonomy)

/-! ## What descriptions state -/

/-- What a rule states for a target. -/
def DescriptionRule.values (rule : DescriptionRule) (target : String) : List Value :=
  if rule.target = target then [rule.value] else []

/-- What these descriptions state for a target, in order. -/
def stated (descriptions : List String) (target : String) : List Value :=
  descriptions.flatMap fun d => (taxonomy.descriptions.lookup d).elim [] fun rule => rule.values target

/-- The descriptions that the vocabulary does not know. -/
def unknown (descriptions : List String) : List String :=
  descriptions.filter fun d => (taxonomy.descriptions.lookup d).isNone

/-- What is stated for an item: the first value of each attribute, and all variants and appearances. -/
def describeItem (values : String → List Value) (item : MediaItem) : MediaItem :=
  { item with
    sizeInches := item.sizeInches.or ((values "size_inches").findSome? Value.asNumber)
    speedRpm := item.speedRpm.or ((values "speed_rpm").findSome? Value.asNumber)
    channels := item.channels.or ((values "channels").findSome? Value.asStr)
    codec := item.codec.or ((values "codec").findSome? Value.asStr)
    variants := item.variants ++ (values "variant").filterMap Value.asStr
    appearance := item.appearance ++ (values "appearance").filterMap Value.asStr }

/-- What is stated for a release: the first value of each scalar fact, and all members of each list. -/
def describeBlock (values : String → List Value) (unmapped : List String) (block : MediaBlock) : MediaBlock :=
  { block with
    releaseKind := block.releaseKind.or ((values "release_kind").findSome? Value.asStr)
    traits := block.traits ++ (values "trait").filterMap Value.asStr
    edition := block.edition ++ (values "edition").filterMap Value.asStr
    packaging := block.packaging.or ((values "packaging").findSome? Value.asStr)
    container := block.container.or ((values "container").findSome? Value.asStr)
    flags := block.flags ++ (values "flag").filterMap Value.asStr
    unmappedDescriptions := block.unmappedDescriptions ++ unmapped }

theorem describeItem_nil (item : MediaItem) : describeItem (fun _ => []) item = item := by
  simp [describeItem]

theorem describeBlock_nil (block : MediaBlock) : describeBlock (fun _ => []) [] block = block := by
  simp [describeBlock]

theorem describeItem_append (values values' : String → List Value) (item : MediaItem) :
    describeItem values' (describeItem values item) = describeItem (fun t => values t ++ values' t) item := by
  simp [describeItem, Option.or_assoc, List.findSome?_append]

theorem describeBlock_append (values values' : String → List Value) (unmapped unmapped' : List String)
    (block : MediaBlock) : describeBlock values' unmapped' (describeBlock values unmapped block) =
      describeBlock (fun t => values t ++ values' t) (unmapped ++ unmapped') block := by
  simp [describeBlock, Option.or_assoc, List.findSome?_append]

theorem values_filterMap {β : Type} (f : Value → Option β) (rule : DescriptionRule) (target : String) :
    (rule.values target).filterMap f = if rule.target = target then (f rule.value).toList else [] := by
  unfold DescriptionRule.values
  split
  · cases h : f rule.value <;> simp [h]
  · rfl

theorem values_findSome {β : Type} (f : Value → Option β) (rule : DescriptionRule) (target : String) :
    (rule.values target).findSome? f = if rule.target = target then f rule.value else none := by
  unfold DescriptionRule.values
  split
  · cases h : f rule.value <;> simp [h]
  · rfl

/-- A rule describes the item that its target names, or the release. -/
theorem applyDescription_eq (block : MediaBlock) (item : Option MediaItem) (rule : DescriptionRule) :
    applyDescription (block, item) rule =
      (describeBlock rule.values [] block, item.map (describeItem rule.values)) := by
  unfold applyDescription describeBlock describeItem
  simp only [values_filterMap, values_findSome, List.append_nil]
  by_cases h0 : rule.target = "ignore"
  · simp [h0]
  by_cases h1 : rule.target ∈ itemAttributes
  · have h2 : rule.target = "size_inches" ∨ rule.target = "speed_rpm" ∨ rule.target = "channels" ∨
        rule.target = "codec" := by simpa [itemAttributes] using h1
    obtain h2 | h2 | h2 | h2 := h2 <;> simp [h2, itemAttributes, MediaItem.fillAttribute]
  · have hsize : rule.target ≠ "size_inches" := fun h => h1 (h ▸ by simp [itemAttributes])
    have hspeed : rule.target ≠ "speed_rpm" := fun h => h1 (h ▸ by simp [itemAttributes])
    have hchannels : rule.target ≠ "channels" := fun h => h1 (h ▸ by simp [itemAttributes])
    have hcodec : rule.target ≠ "codec" := fun h => h1 (h ▸ by simp [itemAttributes])
    simp only [h0, h1, hsize, hspeed, hchannels, hcodec, if_false, Option.or_none]
    cases hvalue : rule.value.asStr with
    | none => simp
    | some value =>
      dsimp only
      -- one branch for each target that takes a string, and one for a target that is not known
      by_cases hvariant : rule.target = "variant"
      · simp [hvariant]
      by_cases happearance : rule.target = "appearance"
      · simp [happearance]
      by_cases htrait : rule.target = "trait"
      · simp [htrait]
      by_cases hedition : rule.target = "edition"
      · simp [hedition]
      by_cases hflag : rule.target = "flag"
      · simp [hflag]
      by_cases hkind : rule.target = "release_kind"
      · simp [hkind]
      by_cases hpackaging : rule.target = "packaging"
      · simp [hpackaging]
      by_cases hcontainer : rule.target = "container"
      · simp [hcontainer]
      simp [hvariant, happearance, htrait, hedition, hflag, hkind, hpackaging, hcontainer]

theorem stated_nil (target : String) : stated taxonomy [] target = [] := rfl

theorem stated_cons (d : String) (ds : List String) (target : String) :
    stated taxonomy (d :: ds) target = stated taxonomy [d] target ++ stated taxonomy ds target := by
  unfold stated
  rw [List.flatMap_cons, List.flatMap_singleton]

theorem stated_append (ds ds' : List String) (target : String) :
    stated taxonomy (ds ++ ds') target = stated taxonomy ds target ++ stated taxonomy ds' target := by
  unfold stated
  exact List.flatMap_append

theorem unknown_append (ds ds' : List String) :
    unknown taxonomy (ds ++ ds') = unknown taxonomy ds ++ unknown taxonomy ds' := by
  unfold unknown
  exact List.filter_append ds ds'

theorem routeDescription_eq (block : MediaBlock) (item : Option MediaItem) (d : String) :
    routeDescription taxonomy (block, item) d =
      (describeBlock (stated taxonomy [d]) (unknown taxonomy [d]) block,
        item.map (describeItem (stated taxonomy [d]))) := by
  unfold routeDescription
  cases hrule : taxonomy.descriptions.lookup d with
  | none =>
    have hstated : stated taxonomy [d] = fun _ => [] := by
      funext target
      simp [stated, hrule]
    have hitem : item.map (describeItem fun _ => []) = item := by
      rw [funext describeItem_nil]
      exact Option.map_id'
    rw [hstated, hitem]
    simp [unknown, describeBlock, hrule]
  | some rule =>
    have hstated : stated taxonomy [d] = rule.values := by
      funext target
      simp [stated, hrule]
    have hunknown : unknown taxonomy [d] = [] := by simp [unknown, hrule]
    rw [hstated, hunknown]
    exact applyDescription_eq block item rule

/-- All descriptions of an entry, by induction: the first value of a scalar stays, lists grow in order. -/
theorem foldl_routeDescription (ds : List String) (block : MediaBlock) (item : Option MediaItem) :
    ds.foldl (routeDescription taxonomy) (block, item) =
      (describeBlock (stated taxonomy ds) (unknown taxonomy ds) block,
        item.map (describeItem (stated taxonomy ds))) := by
  induction ds generalizing block item with
  | nil =>
    have hstated : stated taxonomy [] = fun _ => [] := funext (stated_nil taxonomy)
    rw [hstated]
    show (block, item) = (describeBlock (fun _ => []) [] block, item.map (describeItem fun _ => []))
    rw [describeBlock_nil, funext describeItem_nil]
    exact congrArg (Prod.mk block) Option.map_id'.symm
  | cons d ds ih =>
    have hstated : stated taxonomy (d :: ds) = fun t => stated taxonomy [d] t ++ stated taxonomy ds t :=
      funext (stated_cons taxonomy d ds)
    have hunknown : unknown taxonomy (d :: ds) = unknown taxonomy [d] ++ unknown taxonomy ds :=
      unknown_append taxonomy [d] ds
    rw [List.foldl_cons, routeDescription_eq, ih, describeBlock_append, Option.map_map, hstated, hunknown]
    congr 2
    funext i
    exact describeItem_append _ _ i

/-! ## Defaults -/

/-- What the defaults of a medium state for an item attribute. -/
def defaultValues (defaults : Map) (target : String) : List Value :=
  if target ∈ itemAttributes then (defaults.filter (·.1 = target)).map Prod.snd else []

theorem fillAttribute_eq (item : MediaItem) (name : String) (value : Value) :
    item.fillAttribute name value = describeItem (defaultValues [(name, value)]) item := by
  unfold MediaItem.fillAttribute describeItem defaultValues
  by_cases hsize : name = "size_inches"
  · simp [hsize, itemAttributes]
  by_cases hspeed : name = "speed_rpm"
  · simp [hspeed, itemAttributes]
  by_cases hchannels : name = "channels"
  · simp [hchannels, itemAttributes]
  by_cases hcodec : name = "codec"
  · simp [hcodec, itemAttributes]
  simp [hsize, hspeed, hchannels, hcodec, itemAttributes]

theorem defaultValues_cons (e : String × Value) (defaults : Map) (target : String) :
    defaultValues (e :: defaults) target = defaultValues [e] target ++ defaultValues defaults target := by
  unfold defaultValues
  split
  · rw [← List.map_append, ← List.filter_append, List.singleton_append]
  · rfl

/-- A run of defaults describes like descriptions do: what is there stays. -/
theorem foldl_fillAttribute (defaults : Map) (item : MediaItem) :
    defaults.foldl (fun item e => item.fillAttribute e.1 e.2) item = describeItem (defaultValues defaults) item := by
  induction defaults generalizing item with
  | nil =>
    have hnone : defaultValues [] = fun _ => [] := by
      funext target
      simp [defaultValues]
    rw [hnone, describeItem_nil]
    rfl
  | cons e defaults ih =>
    rw [List.foldl_cons, ih, fillAttribute_eq, describeItem_append]
    congr 1
    funext target
    exact (defaultValues_cons e defaults target).symm

def defaultsOf (item : MediaItem) : Map := ((item.medium.bind taxonomy.media.lookup).map (·.defaults)).getD []

theorem fillDefaults_eq (item : MediaItem) :
    fillDefaults taxonomy item = describeItem (defaultValues (defaultsOf taxonomy item)) item := by
  unfold fillDefaults defaultsOf
  cases item.medium.bind taxonomy.media.lookup with
  | some definition => exact foldl_fillAttribute definition.defaults item
  | none => exact (foldl_fillAttribute [] item)

theorem resolveFamily_source (item : MediaItem) : (resolveFamily taxonomy item).source = item.source := by
  unfold resolveFamily
  split
  · split <;> rfl
  · rfl

theorem resolveMedium_source (item : MediaItem) : (resolveMedium taxonomy item).source = item.source := by
  unfold resolveMedium
  split <;> rfl

theorem finishItem_source (item : MediaItem) : (finishItem taxonomy item).source = item.source := by
  show (fillDefaults taxonomy (resolveMedium taxonomy (resolveFamily taxonomy item))).source = item.source
  rw [fillDefaults_eq]
  show (resolveMedium taxonomy (resolveFamily taxonomy item)).source = item.source
  rw [resolveMedium_source, resolveFamily_source]

/-! ## Entries -/

/-- The name of an entry, its descriptions as one list of strings, and its text. -/
def sourceOf (format : Map) : ItemSource where
  provider := "discogs"
  name := (Map.get "name" format).bind Value.asStr
  descriptions := (Map.get "descriptions" format).elim [] flattenDescriptions
  text := (Map.get "text" format).bind Value.asStr

def descriptionsOf : Value → List String
  | .object format => (sourceOf format).descriptions
  | _ => []

/-- What the vocabulary knows of the name of an entry. -/
def entryOf (format : Map) : Option FormatEntry := (sourceOf format).name.bind taxonomy.formats.lookup

/-- What the vocabulary knows of the name of an entry, or nothing when it is not an object. -/
def knownEntry : Value → Option FormatEntry
  | .object format => entryOf taxonomy format
  | _ => none

def flagsOf (format : Value) : List String :=
  ((knownEntry taxonomy format).bind FormatEntry.flag).toList ++
    (stated taxonomy (descriptionsOf format) "flag").filterMap Value.asStr

def unknownName : Value → Option String
  | .object format => if (entryOf taxonomy format).isNone then (sourceOf format).name else none
  | _ => none

/-- The format name stands for a family or for a medium. -/
def FormatEntry.named (entry : FormatEntry) : Bool := entry.family.isSome || entry.medium.isSome

/-- The item that the name of an entry stands for, before its descriptions. -/
def startItem (format : Map) : Option MediaItem :=
  ((entryOf taxonomy format).filter FormatEntry.named).map fun entry =>
    { family := entry.family
      medium := entry.medium
      qty := parseQty (Map.get "qty" format)
      variants := entry.variant.toList
      source := sourceOf format }

def itemOf : Value → Option MediaItem
  | .object format => (startItem taxonomy format).map fun item =>
    finishItem taxonomy (describeItem (stated taxonomy (sourceOf format).descriptions) item)
  | _ => none

/-- The source of an entry whose name stands for a family or for a medium. -/
def namedSource : Value → Option ItemSource
  | .object format => ((entryOf taxonomy format).filter FormatEntry.named).map fun _ => sourceOf format
  | _ => none

/-- What the name of an entry states for a release. -/
def nameBlock (format : Map) (block : MediaBlock) : MediaBlock :=
  match entryOf taxonomy format with
  | none => { block with unmappedFormats := block.unmappedFormats ++ (sourceOf format).name.toList }
  | some entry =>
    { block with container := entry.container.or block.container, flags := block.flags ++ entry.flag.toList }

/-- The block and the item that the name of an entry leaves to its descriptions. -/
def namedStart (format : Map) (block : MediaBlock) : MediaBlock × Option MediaItem :=
  match entryOf taxonomy format with
  | none => ({ block with unmappedFormats := block.unmappedFormats ++ (sourceOf format).name.toList }, none)
  | some entry =>
    let applied := applyFormatEntry block entry { source := sourceOf format }
    (applied.1, applied.2.map fun i => { i with qty := parseQty (Map.get "qty" format) })

theorem namedStart_eq (format : Map) (block : MediaBlock) :
    namedStart taxonomy format block = (nameBlock taxonomy format block, startItem taxonomy format) := by
  unfold namedStart nameBlock startItem
  cases entryOf taxonomy format with
  | none => rfl
  | some entry =>
    obtain ⟨family, medium, variant, container, flag⟩ := entry
    cases family <;> cases medium <;> simp [applyFormatEntry, FormatEntry.named]

/-- The name of an entry comes first, then its descriptions. -/
theorem mapFormat_routes (block : MediaBlock) (format : Map) :
    mapFormat taxonomy block (.object format) =
      let routed := (sourceOf format).descriptions.foldl (routeDescription taxonomy) (namedStart taxonomy format block)
      { routed.1 with items := routed.1.items ++ (routed.2.map (finishItem taxonomy)).toList } := by
  unfold mapFormat namedStart entryOf sourceOf
  dsimp only
  cases Map.get "descriptions" format <;>
    cases ((Map.get "name" format).bind Value.asStr).bind taxonomy.formats.lookup <;> rfl

/-- One entry: its name and its descriptions state something for the release, and its item is added. -/
theorem mapFormat_eq (block : MediaBlock) (format : Map) :
    mapFormat taxonomy block (.object format) =
      let described := describeBlock (stated taxonomy (sourceOf format).descriptions)
        (unknown taxonomy (sourceOf format).descriptions) (nameBlock taxonomy format block)
      { described with items := described.items ++ (itemOf taxonomy (.object format)).toList } := by
  rw [mapFormat_routes, namedStart_eq, foldl_routeDescription]
  dsimp only [itemOf]
  rw [Option.map_map]
  rfl

/-- What these formats have added to a block. -/
structure Gathered (formats : List Value) (block block' : MediaBlock) : Prop where
  items : block'.items = block.items ++ formats.filterMap (itemOf taxonomy)
  unmappedFormats : block'.unmappedFormats = block.unmappedFormats ++ formats.filterMap (unknownName taxonomy)
  unmappedDescriptions : block'.unmappedDescriptions =
    block.unmappedDescriptions ++ unknown taxonomy (formats.flatMap descriptionsOf)
  releaseKind : block'.releaseKind =
    block.releaseKind.or ((stated taxonomy (formats.flatMap descriptionsOf) "release_kind").findSome? Value.asStr)
  packaging : block'.packaging =
    block.packaging.or ((stated taxonomy (formats.flatMap descriptionsOf) "packaging").findSome? Value.asStr)
  traits : block'.traits =
    block.traits ++ (stated taxonomy (formats.flatMap descriptionsOf) "trait").filterMap Value.asStr
  edition : block'.edition =
    block.edition ++ (stated taxonomy (formats.flatMap descriptionsOf) "edition").filterMap Value.asStr
  flags : block'.flags = block.flags ++ formats.flatMap (flagsOf taxonomy)
  container : block'.container =
    (formats.filterMap fun v => (knownEntry taxonomy v).bind FormatEntry.container).getLast?.or
      (block.container.or ((stated taxonomy (formats.flatMap descriptionsOf) "container").findSome? Value.asStr))

variable {taxonomy}

theorem Gathered.none (block : MediaBlock) : Gathered taxonomy [] block block where
  items := (List.append_nil _).symm
  unmappedFormats := (List.append_nil _).symm
  unmappedDescriptions := (List.append_nil _).symm
  releaseKind := Option.or_none.symm
  packaging := Option.or_none.symm
  traits := (List.append_nil _).symm
  edition := (List.append_nil _).symm
  flags := (List.append_nil _).symm
  container := Option.or_none.symm

theorem Gathered.append {formats formats' : List Value} {block mid block' : MediaBlock}
    (h : Gathered taxonomy formats block mid) (h' : Gathered taxonomy formats' mid block') :
    Gathered taxonomy (formats ++ formats') block block' where
  items := by rw [h'.items, h.items, List.filterMap_append, List.append_assoc]
  unmappedFormats := by rw [h'.unmappedFormats, h.unmappedFormats, List.filterMap_append, List.append_assoc]
  unmappedDescriptions := by
    rw [h'.unmappedDescriptions, h.unmappedDescriptions, List.flatMap_append, unknown_append, List.append_assoc]
  releaseKind := by
    rw [h'.releaseKind, h.releaseKind, List.flatMap_append, stated_append, List.findSome?_append, Option.or_assoc]
  packaging := by
    rw [h'.packaging, h.packaging, List.flatMap_append, stated_append, List.findSome?_append, Option.or_assoc]
  traits := by
    rw [h'.traits, h.traits, List.flatMap_append, stated_append, List.filterMap_append, List.append_assoc]
  edition := by
    rw [h'.edition, h.edition, List.flatMap_append, stated_append, List.filterMap_append, List.append_assoc]
  flags := by rw [h'.flags, h.flags, List.flatMap_append, List.append_assoc]
  container := by
    rw [h'.container, h.container, List.flatMap_append, stated_append, List.findSome?_append, List.filterMap_append,
      List.getLast?_append, Option.or_assoc, Option.or_assoc, Option.or_assoc]

theorem gathered_object (block : MediaBlock) (format : Map) :
    Gathered taxonomy [.object format] block (mapFormat taxonomy block (.object format)) := by
  have hdescriptions : [Value.object format].flatMap descriptionsOf = (sourceOf format).descriptions :=
    List.flatMap_singleton ..
  rw [mapFormat_eq]
  refine ⟨?_, ?_, ?_, ?_, ?_, ?_, ?_, ?_, ?_⟩ <;> try rw [hdescriptions]
  · show (nameBlock taxonomy format block).items ++ (itemOf taxonomy (.object format)).toList = _
    unfold nameBlock
    cases entryOf taxonomy format <;> cases hitem : itemOf taxonomy (.object format) <;> simp [hitem]
  · show (nameBlock taxonomy format block).unmappedFormats = _
    unfold nameBlock
    cases hentry : entryOf taxonomy format with
    | none => cases hname : (sourceOf format).name <;> simp [unknownName, hentry, hname]
    | some entry => simp [unknownName, hentry]
  · show (nameBlock taxonomy format block).unmappedDescriptions ++ _ = _
    unfold nameBlock
    cases entryOf taxonomy format <;> rfl
  · show (nameBlock taxonomy format block).releaseKind.or _ = _
    unfold nameBlock
    cases entryOf taxonomy format <;> rfl
  · show (nameBlock taxonomy format block).packaging.or _ = _
    unfold nameBlock
    cases entryOf taxonomy format <;> rfl
  · show (nameBlock taxonomy format block).traits ++ _ = _
    unfold nameBlock
    cases entryOf taxonomy format <;> rfl
  · show (nameBlock taxonomy format block).edition ++ _ = _
    unfold nameBlock
    cases entryOf taxonomy format <;> rfl
  · show (nameBlock taxonomy format block).flags ++ _ = _
    unfold nameBlock
    cases hentry : entryOf taxonomy format <;> simp [flagsOf, knownEntry, descriptionsOf, hentry]
  · show (nameBlock taxonomy format block).container.or _ = _
    unfold nameBlock
    cases hentry : entryOf taxonomy format with
    | none => simp [knownEntry, hentry]
    | some entry => cases hcontainer : entry.container <;> simp [knownEntry, hentry, hcontainer]

/-- One format. What is not an object adds nothing. -/
theorem gathered_format (block : MediaBlock) (format : Value) :
    Gathered taxonomy [format] block (mapFormat taxonomy block format) := by
  cases format with
  | object format => exact gathered_object block format
  | _ => exact ⟨(List.append_nil _).symm, (List.append_nil _).symm, (List.append_nil _).symm, Option.or_none.symm,
      Option.or_none.symm, (List.append_nil _).symm, (List.append_nil _).symm, (List.append_nil _).symm,
      Option.or_none.symm⟩

theorem gathered_formats (formats : List Value) (block : MediaBlock) :
    Gathered taxonomy formats block (formats.foldl (mapFormat taxonomy) block) := by
  induction formats generalizing block with
  | nil => exact .none block
  | cons format rest ih => exact (gathered_format block format).append (ih _)

/-- What stands in the block of these formats, and where it comes from. -/
structure Routed (taxonomy : Taxonomy) (formats : List Value) (block : MediaBlock) : Prop where
  /-- One item for each entry that the vocabulary maps, in order, and each from its own entry alone. -/
  items : block.items = formats.filterMap (itemOf taxonomy)
  sources : block.items.map MediaItem.source = formats.filterMap (namedSource taxonomy)
  unmappedFormats : ∀ s, s ∈ block.unmappedFormats ↔
    ∃ format, .object format ∈ formats ∧ (sourceOf format).name = some s ∧ taxonomy.formats.lookup s = none
  unmappedDescriptions : ∀ s, s ∈ block.unmappedDescriptions ↔
    ∃ format, .object format ∈ formats ∧ s ∈ (sourceOf format).descriptions ∧ taxonomy.descriptions.lookup s = none
  /-- The first value in document order. -/
  releaseKind : block.releaseKind.map Value.string =
    (stated taxonomy (formats.flatMap descriptionsOf) "release_kind").head?
  packaging : block.packaging.map Value.string =
    (stated taxonomy (formats.flatMap descriptionsOf) "packaging").head?
  families : block.families.Pairwise (· < ·) ∧ ∀ s, s ∈ block.families ↔ ∃ item ∈ block.items, item.family = some s
  traits : block.traits.Pairwise (· < ·) ∧
    ∀ s, s ∈ block.traits ↔ .string s ∈ stated taxonomy (formats.flatMap descriptionsOf) "trait"
  edition : block.edition.Pairwise (· < ·) ∧
    ∀ s, s ∈ block.edition ↔ .string s ∈ stated taxonomy (formats.flatMap descriptionsOf) "edition"
  flags : block.flags.Pairwise (· < ·) ∧ ∀ s, s ∈ block.flags ↔ ∃ format ∈ formats, s ∈ flagsOf taxonomy format
  /-- The last container that a name states, or the first that a description states. -/
  container : block.container =
    (formats.filterMap fun v => (knownEntry taxonomy v).bind FormatEntry.container).getLast?.or
      ((stated taxonomy (formats.flatMap descriptionsOf) "container").findSome? Value.asStr)
  unmappedStrict : block.unmappedFormats.Pairwise (· < ·) ∧ block.unmappedDescriptions.Pairwise (· < ·)

theorem findSome_head {β : Type} {f : Value → Option β} {g : β → Value} {values : List Value}
    (h : ∀ v ∈ values, ∃ b, f v = some b ∧ g b = v) : (values.findSome? f).map g = values.head? := by
  cases values with
  | nil => rfl
  | cons v rest =>
    obtain ⟨b, hf, rfl⟩ := h v List.mem_cons_self
    rw [List.findSome?_cons, hf]
    rfl

/-- The vocabulary states strings for this target. -/
def Stringly (taxonomy : Taxonomy) (target : String) : Prop :=
  ∀ d rule, taxonomy.descriptions.lookup d = some rule → rule.target = target →
    ∃ s, rule.value.asStr = some s ∧ Value.string s = rule.value

theorem mem_stated {ds : List String} {target : String} {v : Value} : v ∈ stated taxonomy ds target ↔
    ∃ d ∈ ds, ∃ rule, taxonomy.descriptions.lookup d = some rule ∧ rule.target = target ∧ v = rule.value := by
  unfold stated
  rw [List.mem_flatMap]
  refine exists_congr fun d => and_congr_right fun _ => ?_
  cases hrule : taxonomy.descriptions.lookup d with
  | none => simp
  | some rule => simp [DescriptionRule.values]

theorem Stringly.stated {target : String} (h : Stringly taxonomy target) (ds : List String) :
    ∀ v ∈ Media.stated taxonomy ds target, ∃ s, v.asStr = some s ∧ Value.string s = v := by
  intro v hv
  obtain ⟨d, -, rule, hrule, htarget, rfl⟩ := mem_stated.1 hv
  exact h d rule hrule htarget

/-- The items, each from its own entry. -/
theorem items_eq (formats : Option Value) :
    (mapDiscogsFormats taxonomy formats).items = (entriesOf formats).filterMap (itemOf taxonomy) := by
  show ((entriesOf formats).foldl (mapFormat taxonomy) _).items = _
  rw [(gathered_formats _ _).items]
  rfl

/-- The rule states a value of the kind that its target takes. -/
def DescriptionRule.typed (rule : DescriptionRule) : Bool :=
  if rule.target = "ignore" then true
  else if rule.target = "size_inches" || rule.target = "speed_rpm" then rule.value.asNumber.isSome
  else rule.value.asStr.isSome

theorem typed_number {rule : DescriptionRule} (h : rule.typed = true)
    (htarget : rule.target = "size_inches" ∨ rule.target = "speed_rpm") :
    ∃ n, rule.value.asNumber = some n ∧ Value.number n = rule.value := by
  have hnumber : rule.value.asNumber.isSome = true := by
    obtain ht | ht := htarget <;> simpa [DescriptionRule.typed, ht] using h
  cases hvalue : rule.value with
  | number n => exact ⟨n, rfl, rfl⟩
  | _ =>
    rw [hvalue] at hnumber
    exact nomatch hnumber

theorem typed_string {rule : DescriptionRule} (h : rule.typed = true) (hignore : rule.target ≠ "ignore")
    (hsize : rule.target ≠ "size_inches") (hspeed : rule.target ≠ "speed_rpm") :
    ∃ s, rule.value.asStr = some s ∧ Value.string s = rule.value := by
  have hstring : rule.value.asStr.isSome = true := by
    simpa [DescriptionRule.typed, hignore, hsize, hspeed] using h
  cases hvalue : rule.value with
  | string s => exact ⟨s, rfl, rfl⟩
  | _ =>
    rw [hvalue] at hstring
    exact nomatch hstring

theorem typed_of_lookup {document : TaxonomyDocument} (h : ∀ e ∈ document.descriptions, e.2.typed = true) {d : String}
    {rule : DescriptionRule} (hrule : (Taxonomy.ofDocument document).descriptions.lookup d = some rule) :
    rule.typed = true := by
  obtain ⟨e, he, heq⟩ := Table.exists_of_lookup_collect hrule
  obtain rfl := Option.some.inj heq
  exact h _ he

theorem vendoredDescriptions_typed : ∀ e ∈ vendoredDescriptions, e.2.typed = true := by decide +kernel

end DiscogsIngestion.Media
