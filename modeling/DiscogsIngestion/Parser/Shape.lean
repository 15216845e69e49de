import DiscogsIngestion.Map
import DiscogsIngestion.Parser.Machine

/-!
# What the parser emits

Whatever the reader returns, the values on the stack of the loop and in its messages have one shape.

* `Value.Shaped`, `Value.EntryShaped` : null, text that is not blank, or an object of attributes, text and children;
* `ElementContext.Shaped` : an element under construction from which such a value comes;
* `DataMessage.Emitted` : a message whose record is an object of this shape, with the id it has to have;
* `XmlParser.parseFile_emitted` : every message of a run is of this kind.
-/

namespace DiscogsIngestion

mutual

/-- A value that an element converts to. -/
inductive Value.Shaped : Value → Prop where
  | null : Shaped .null
  | string {s : String} (h : isBlank s = false) : Shaped (.string s)
  | object {entries : Map} (hs : entries.Sorted) (hne : entries ≠ []) (h : ∀ e ∈ entries, EntryShaped e) :
    Shaped (.object entries)

/-- An entry of an object that an element converts to. -/
inductive Value.EntryShaped : String × Value → Prop where
  | attr {key name s : String} (h : stripAt key = some name) : EntryShaped (key, .string s)
  | child {key : String} {v : Value} (h : Shaped v) : EntryShaped (key, v)
  | children {key : String} {items : List Value} (hlen : 2 ≤ items.length) (h : ∀ v ∈ items, Shaped v) :
    EntryShaped (key, .array items)

end

mutual

theorem Value.Shaped.ordered {v : Value} : v.Shaped → v.Ordered
  | .null => .null
  | .string _ => .string _
  | .object hs _ h => .object hs fun e he => (h e he).ordered

theorem Value.EntryShaped.ordered {e : String × Value} : Value.EntryShaped e → e.2.Ordered
  | .attr _ => .string _
  | .child h => h.ordered
  | .children _ h => .array fun v hv => (h v hv).ordered

end

/-- A child, or the children of one name. -/
def Value.ChildShaped (v : Value) : Prop :=
  v.Shaped ∨ ∃ items, v = .array items ∧ 2 ≤ items.length ∧ ∀ w ∈ items, w.Shaped

theorem Value.ChildShaped.entry {v : Value} (h : v.ChildShaped) (key : String) : Value.EntryShaped (key, v) := by
  rcases h with h | ⟨items, rfl, hlen, h⟩
  · exact .child h
  · exact .children hlen h

/-! ## Elements -/

namespace ElementContext

structure Shaped (ctx : ElementContext) : Prop where
  attributes_sorted : ctx.attributes.Sorted
  attributes : ∀ e ∈ ctx.attributes, ∃ s, e.2 = .string s
  children_sorted : ctx.children.Sorted
  children : ∀ e ∈ ctx.children, e.2.ChildShaped

variable {ctx : ElementContext}

theorem withAttributes_shaped (e : BytesStart) : (withAttributes e).Shaped := by
  have hfold : ∀ (attrs : List Attr) (m : Map), m.Sorted → (∀ e ∈ m, ∃ s, e.2 = .string s) →
      let m' := attrs.foldl (fun m a => Map.insert a.key (.string (a.normalized.getD a.raw)) m) m
      m'.Sorted ∧ ∀ e ∈ m', ∃ s, e.2 = .string s := by
    intro attrs
    induction attrs with
    | nil => exact fun m hm hs => ⟨hm, hs⟩
    | cons a attrs ih =>
      intro m hm hs
      refine ih _ (Map.insert_sorted hm _ _) fun e he => ?_
      rcases Map.mem_insert he with rfl | he
      · exact ⟨_, rfl⟩
      · exact hs e he
  obtain ⟨hsorted, hstrings⟩ := hfold (e.attributes.filterMap id) [] Map.sorted_nil
    fun e he => absurd he List.not_mem_nil
  exact ⟨hsorted, hstrings, Map.sorted_nil, fun e he => absurd he List.not_mem_nil⟩

theorem pushChars_eq (ctx : ElementContext) (c : CharData) :
    ∃ text, ctx.pushChars c = { ctx with textContent := text } := by
  cases c <;> exact ⟨_, rfl⟩

theorem Shaped.pushChars (h : ctx.Shaped) (c : CharData) : (ctx.pushChars c).Shaped := by
  obtain ⟨text, heq⟩ := pushChars_eq ctx c
  rw [heq]
  exact ⟨h.attributes_sorted, h.attributes, h.children_sorted, h.children⟩

theorem Shaped.addChild (h : ctx.Shaped) (name : String) {v : Value} (hv : v.Shaped) :
    (ctx.addChild name v).Shaped := by
  have hinsert : ∀ value : Value, value.ChildShaped →
      Shaped { ctx with children := Map.insert name value ctx.children } := by
    intro value hvalue
    refine ⟨h.attributes_sorted, h.attributes, Map.insert_sorted h.children_sorted _ _, fun e he => ?_⟩
    rcases Map.mem_insert he with rfl | he
    · exact hvalue
    · exact h.children e he
  unfold ElementContext.addChild
  split
  · next arr hget =>
    rcases h.children _ (Map.mem_of_get hget) with harr | ⟨items, heq, hlen, hitems⟩
    · exact nomatch harr
    · obtain rfl := Value.array.inj heq
      refine hinsert _ (.inr ⟨_, rfl, by simp; omega, fun w hw => ?_⟩)
      rcases List.mem_append.1 hw with hw | hw
      · exact hitems w hw
      · exact (List.mem_singleton.1 hw) ▸ hv
  · next old harr hget =>
    have hold : old.Shaped := (h.children _ (Map.mem_of_get hget)).resolve_right
      fun ⟨items, heq, _⟩ => harr items heq
    refine hinsert _ (.inr ⟨_, rfl, le_rfl, fun w hw => ?_⟩)
    rcases List.mem_cons.1 hw with rfl | hw
    · exact hold
    · exact (List.mem_singleton.1 hw) ▸ hv
  · exact hinsert _ (.inl hv)

/-! ## Values -/

theorem prefixed_eq (attributes : Map) :
    prefixed attributes = Map.insertAll (attributes.map fun e => ("@" ++ e.1, e.2)) [] := by
  unfold prefixed Map.insertAll
  rw [List.foldl_map]

theorem prefixed_sorted (attributes : Map) : (prefixed attributes).Sorted := by
  rw [prefixed_eq]
  exact Map.insertAll_sorted _ Map.sorted_nil

def entries (ctx : ElementContext) : Map :=
  let text := if isBlank ctx.textContent then [] else [("#text", Value.string ctx.textContent)]
  Map.insertAll ctx.children (Map.insertAll text (prefixed ctx.attributes))

/-- An element without attributes and children is its text, or nothing. -/
theorem intoValue_eq (ctx : ElementContext) :
    ctx.intoValue =
      if ctx.attributes = [] ∧ ctx.children = [] then
        if isBlank ctx.textContent then .null else .string ctx.textContent
      else .object ctx.entries := by
  have hattrs : prefixed ctx.attributes = [] ↔ ctx.attributes = [] := by
    rw [prefixed_eq, Map.insertAll_eq_nil_iff]
    simp
  have hnil : prefixed [] = [] := rfl
  have hentries : ctx.entries = [] ↔
      ctx.children = [] ∧ isBlank ctx.textContent = true ∧ ctx.attributes = [] := by
    unfold entries
    rw [Map.insertAll_eq_nil_iff, Map.insertAll_eq_nil_iff, hattrs]
    split_ifs with h <;> simp [h]
  unfold intoValue
  cases hblank : isBlank ctx.textContent with
  | true =>
    have hresult : ctx.children.foldl (fun m e => Map.insert e.1 e.2 m) (prefixed ctx.attributes) = ctx.entries := by
      unfold entries
      rw [if_pos hblank]
      rfl
    by_cases hnone : ctx.attributes = [] ∧ ctx.children = []
    · simp [hnone, hnil]
    · have hnone' : ¬(ctx.children = [] ∧ ctx.attributes = []) := fun h => hnone h.symm
      simp [hresult, hentries, hblank, hnone, hnone']
  | false =>
    have hresult : ctx.children.foldl (fun m e => Map.insert e.1 e.2 m)
        (Map.insert "#text" (.string ctx.textContent) (prefixed ctx.attributes)) = ctx.entries := by
      unfold entries
      rw [if_neg (by simp [hblank])]
      rfl
    by_cases hnone : ctx.attributes = [] ∧ ctx.children = []
    · simp [hnone, hnil]
    · have hnone' : ¬(ctx.children = [] ∧ prefixed ctx.attributes = []) := by
        rw [hattrs]
        exact fun h => hnone h.symm
      simp [hresult, hentries, hblank, hnone, hnone']

theorem entries_sorted (ctx : ElementContext) : ctx.entries.Sorted :=
  Map.insertAll_sorted _ (Map.insertAll_sorted _ (prefixed_sorted _))

theorem entries_ne_nil (h : ¬(ctx.attributes = [] ∧ ctx.children = [])) : ctx.entries ≠ [] := by
  unfold entries
  rw [Ne, Map.insertAll_eq_nil_iff, Map.insertAll_eq_nil_iff, prefixed_eq, Map.insertAll_eq_nil_iff]
  rintro ⟨hc, -, ha, -⟩
  exact h ⟨List.map_eq_nil_iff.1 ha, hc⟩

theorem mem_entries {e : String × Value} (h : e ∈ ctx.entries) :
    (∃ a ∈ ctx.attributes, e = ("@" ++ a.1, a.2)) ∨
      (isBlank ctx.textContent = false ∧ e = ("#text", .string ctx.textContent)) ∨ e ∈ ctx.children := by
  unfold entries at h
  rcases Map.mem_insertAll h with h | h
  · exact .inr (.inr h)
  rcases Map.mem_insertAll h with h | h
  · split_ifs at h with hblank
    · exact absurd h List.not_mem_nil
    · exact .inr (.inl ⟨by simpa using hblank, List.mem_singleton.1 h⟩)
  · rw [prefixed_eq] at h
    rcases Map.mem_insertAll h with h | h
    · obtain ⟨a, ha, rfl⟩ := List.mem_map.1 h
      exact .inl ⟨a, ha, rfl⟩
    · exact absurd h List.not_mem_nil

theorem Shaped.intoValue (h : ctx.Shaped) : ctx.intoValue.Shaped := by
  rw [intoValue_eq]
  split_ifs with hnone hblank
  · exact .null
  · exact .string (by simpa using hblank)
  · refine .object ctx.entries_sorted (entries_ne_nil hnone) fun e he => ?_
    rcases mem_entries he with ⟨a, ha, rfl⟩ | ⟨hblank, rfl⟩ | hchild
    · obtain ⟨s, hs⟩ := h.attributes a ha
      rw [hs]
      exact .attr (stripAt_append a.1)
    · exact .child (.string hblank)
    · exact (h.children e hchild).entry e.1

end ElementContext

/-! ## Messages -/

/-- A message for a record of the shape that the parser gives it. Beside `@id` there is no `id`. -/
structure DataMessage.Emitted (p : XmlParser) (m : DataMessage) : Prop where
  entries : ∃ entries, m.data = .object entries ∧ (Value.object entries).Shaped ∧
    (Map.containsKey "@id" entries = true → Map.containsKey "id" entries = false) ∧
    m.id = XmlParser.recordId entries
  evidence : m.rawXml = if p.captureRawXml then some (reconstructXml p.target m.data) else none

namespace XmlParser

variable {p : XmlParser}

theorem closedRecord_emitted {v : Value} (hv : v.Shaped) {m : DataMessage} (h : p.closedRecord v = some m) :
    m.Emitted p := by
  unfold closedRecord at h
  split at h
  · next obj =>
    obtain rfl := Option.some.inj h
    refine ⟨⟨_, rfl, ?_⟩, rfl⟩
    cases hv with
    | object hs hne hentries =>
      split_ifs with hid
      · have hget : ∀ key, key ≠ "id" → Map.get key (Map.remove "id" obj) = Map.get key obj := by
          intro key hkey
          rw [Map.get_remove, if_neg hkey]
        refine ⟨.object (Map.remove_sorted hs _) ?_ fun e he => hentries e (List.mem_of_mem_filter he), ?_, ?_⟩
        · intro hnil
          have hthere := hget "@id" (by decide)
          rw [hnil] at hthere
          unfold Map.containsKey at hid
          rw [← hthere] at hid
          exact nomatch hid
        · intro _
          unfold Map.containsKey
          rw [Map.get_remove, if_pos rfl]
          rfl
        · obtain ⟨v, hv⟩ := Map.containsKey_iff.1 hid
          unfold recordId
          rw [hget "@id" (by decide), hv]
          rfl
      · exact ⟨.object hs hne hentries, fun hno => absurd hno hid, rfl⟩
  · exact nomatch h

theorem emptyRecord_emitted {e : BytesStart} {m : DataMessage} (h : p.emptyRecord e = some m) : m.Emitted p := by
  have hshaped := (ElementContext.withAttributes_shaped e).intoValue
  unfold emptyRecord at h
  split at h
  · next obj hobj =>
    obtain rfl := Option.some.inj h
    refine ⟨⟨obj, rfl, hobj ▸ hshaped, fun _ => ?_, rfl⟩, rfl⟩
    rw [ElementContext.intoValue_eq] at hobj
    split_ifs at hobj
    obtain rfl := Value.object.inj hobj
    cases hid : Map.containsKey "id" (ElementContext.withAttributes e).entries with
    | false => rfl
    | true =>
      obtain ⟨v, hv⟩ := Map.containsKey_iff.1 hid
      rcases ElementContext.mem_entries (Map.mem_of_get hv) with ⟨a, -, heq⟩ | ⟨-, heq⟩ | hchild
      · have hkey : "id" = "@" ++ a.1 := congrArg Prod.fst heq
        have hstrip := stripAt_append a.1
        rw [← hkey] at hstrip
        exact nomatch hstrip
      · have hkey : "id" = "#text" := congrArg Prod.fst heq
        exact absurd hkey (by decide)
      · exact absurd hchild List.not_mem_nil
  · exact nomatch h

/-! ## Runs -/

/-- Every open element is of the shape that its value needs. -/
def Shaped (s : ParseState) : Prop := ∀ ctx ∈ s.elementStack, ctx.Shaped

theorem Shaped.of_stack {s s' : ParseState} (h : Shaped s) (heq : s'.elementStack = s.elementStack) : Shaped s' := by
  intro ctx hctx
  rw [heq] at hctx
  exact h ctx hctx

/-- The iteration keeps the shape of the stack and sends messages of their shape. -/
def KeepsShape (p : XmlParser) : Iteration → Prop
  | .next s sent => Shaped s ∧ ∀ m ∈ sent, m.Emitted p
  | .stop _ => True

theorem keepsShape_silent {s : ParseState} (hs : Shaped s) : p.KeepsShape (.next s []) :=
  ⟨hs, fun _ hm => absurd hm List.not_mem_nil⟩

theorem KeepsShape.leaveElement {it : Iteration} (h : p.KeepsShape it) :
    p.KeepsShape (Iteration.leaveElement it) := by
  cases it with
  | next s sent => exact h
  | stop result => trivial

theorem keepsShape_sendRecord {receiver : Nat → Bool} {s : ParseState} (hs : Shaped s) {record : Option DataMessage}
    (hrecord : ∀ m, record = some m → m.Emitted p) : p.KeepsShape (sendRecord receiver s record) := by
  unfold sendRecord
  split
  · exact keepsShape_silent hs
  · split
    · refine ⟨hs, fun m hm => ?_⟩
      obtain rfl := List.mem_singleton.1 hm
      exact hrecord _ rfl
    · trivial

theorem Shaped.cons {s : ParseState} {ctx : ElementContext} {stack : List ElementContext} (hctx : ctx.Shaped)
    (hs : ∀ ctx ∈ stack, ctx.Shaped) : Shaped { s with elementStack := ctx :: stack } := by
  intro ctx' hmem
  rcases List.mem_cons.1 hmem with rfl | hmem
  · exact hctx
  · exact hs ctx' hmem

theorem addToParent_shaped {s : ParseState} (hs : Shaped s) (name : String) {v : Value} (hv : v.Shaped) :
    Shaped (addToParent s name v) := by
  unfold addToParent
  split
  · next parent stack hstack =>
    refine Shaped.cons ((hs parent ?_).addChild name hv) fun ctx hctx => hs ctx ?_
    · exact hstack ▸ List.mem_cons_self ..
    · exact hstack ▸ List.mem_cons_of_mem _ hctx
  · exact hs

theorem onStart_shape {s : ParseState} (hs : Shaped s) (e : BytesStart) : p.KeepsShape (p.onStart s e) := by
  unfold onStart
  refine keepsShape_silent ?_
  dsimp only
  split_ifs
  · exact Shaped.cons (ElementContext.withAttributes_shaped e) fun ctx hctx => absurd hctx List.not_mem_nil
  · exact fun ctx hctx => absurd hctx List.not_mem_nil
  · exact Shaped.cons (ElementContext.withAttributes_shaped e) hs
  · exact hs

theorem onEmpty_shape {receiver : Nat → Bool} {s : ParseState} (hs : Shaped s) (e : BytesStart) :
    p.KeepsShape (p.onEmpty receiver s e) := by
  unfold onEmpty
  refine KeepsShape.leaveElement ?_
  dsimp only
  split_ifs
  · exact keepsShape_sendRecord (fun ctx hctx => absurd hctx List.not_mem_nil) fun m hm => emptyRecord_emitted hm
  · apply keepsShape_silent
    refine addToParent_shaped ?_ e.name (ElementContext.withAttributes_shaped e).intoValue
    exact hs.of_stack rfl
  · exact keepsShape_silent hs

theorem onEnd_shape {receiver : Nat → Bool} {s : ParseState} (hs : Shaped s) (name : String) :
    p.KeepsShape (p.onEnd receiver s name) := by
  unfold onEnd
  refine KeepsShape.leaveElement ?_
  split
  · next context stack _ hstack =>
    have hvalue : context.intoValue.Shaped := (hs context (hstack ▸ List.mem_cons_self ..)).intoValue
    have hrest : Shaped { s with elementStack := stack } := fun ctx hctx =>
      hs ctx (hstack ▸ List.mem_cons_of_mem _ hctx)
    dsimp only
    split_ifs
    · refine keepsShape_sendRecord ?_ fun m hm => closedRecord_emitted hvalue hm
      exact hrest.of_stack rfl
    · exact keepsShape_silent (addToParent_shaped hrest name hvalue)
  · exact keepsShape_silent hs

theorem onChars_shape {s : ParseState} (hs : Shaped s) (c : CharData) : p.KeepsShape (onChars s c) := by
  unfold onChars
  split
  · next context stack _ hstack =>
    refine keepsShape_silent (Shaped.cons ((hs context ?_).pushChars c) fun ctx hctx => hs ctx ?_)
    · exact hstack ▸ List.mem_cons_self ..
    · exact hstack ▸ List.mem_cons_of_mem _ hctx
  · exact keepsShape_silent hs

theorem onEvent_shape {receiver : Nat → Bool} {s : ParseState} (hs : Shaped s) (e : Event) :
    p.KeepsShape (p.onEvent receiver s e) := by
  cases e with
  | start e => exact onStart_shape hs e
  | empty e => exact onEmpty_shape hs e
  | endTag name => exact onEnd_shape hs name
  | chars c => exact onChars_shape hs c
  | misc => exact keepsShape_silent hs

theorem onError_shape {s : ParseState} (e : ReaderError) (position : Nat) : p.KeepsShape (onError s e position) := by
  unfold onError
  dsimp only
  split_ifs
  · trivial
  · trivial
  · exact keepsShape_silent fun ctx hctx => absurd hctx List.not_mem_nil

theorem step_shape {receiver : Nat → Bool} {s : ParseState} (hs : Shaped s) (r : ReadResult) :
    p.KeepsShape (p.step receiver s r) := by
  unfold step
  split
  · exact onError_shape ..
  · split_ifs
    · refine onEvent_shape ?_ _
      exact hs.of_stack rfl
    · exact keepsShape_silent hs
    · exact onEvent_shape hs _

theorem parseEvents_emitted {receiver : Nat → Bool} {s : ParseState} (hs : Shaped s) (rs : List ReadResult) :
    ∀ m ∈ (p.parseEvents receiver s rs).2, m.Emitted p := by
  induction rs generalizing s with
  | nil => exact fun m hm => absurd hm List.not_mem_nil
  | cons r rest ih =>
    have hstep : p.KeepsShape (p.step receiver s r) := step_shape hs r
    unfold parseEvents
    split
    · next s' sent heq =>
      rw [heq] at hstep
      intro m hm
      rcases List.mem_append.1 hm with hm | hm
      · exact hstep.2 m hm
      · exact ih hstep.1 m hm
    · exact fun m hm => absurd hm List.not_mem_nil

/-- Every message of a run, whatever the reader returns, is of the shape that records have. -/
theorem parseFile_emitted {receiver : Nat → Bool} {results : Option (List ReadResult)} {m : DataMessage}
    (h : m ∈ (p.parseFile receiver results).2) : m.Emitted p := by
  unfold parseFile at h
  split at h
  · exact absurd h List.not_mem_nil
  · exact parseEvents_emitted (fun ctx hctx => absurd hctx List.not_mem_nil) _ m h

end XmlParser

end DiscogsIngestion
