import Mathlib.Data.Prod.Lex
import DiscogsIngestion.Lib.Words
import DiscogsIngestion.Record.IdentifierVocabulary

/-!
# Canonical aliases

* `CaseMapping.UpperLaws` : what is known of upper case;
* `Normalizes` : the three rules for alias values; `Normalizes.fixed` : what they give, they leave as it is;
* `IdentifierAlias.Lt` : the strict order of aliases; `mintedAliases_strict` : the aliases of a block stand in it.
-/

namespace DiscogsIngestion

/-- Upper case goes character by character. A character becomes one or more; a space stays, and no other
character becomes white space. Once more, it changes nothing. -/
structure CaseMapping.UpperLaws (casing : CaseMapping) : Prop where
  charwise : ∀ s, (casing.toUppercase s).toList =
    s.toList.flatMap fun c => (casing.toUppercase (String.singleton c)).toList
  nonempty : ∀ c, casing.toUppercase (String.singleton c) ≠ ""
  space : casing.toUppercase " " = " "
  noWhitespace : ∀ c, isWhitespace c = false →
    ∀ d ∈ (casing.toUppercase (String.singleton c)).toList, isWhitespace d = false
  idempotent : ∀ s, casing.toUppercase (casing.toUppercase s) = casing.toUppercase s

/-! ## Normal forms -/

theorem toList_collapseSpace (value : String) :
    (collapseSpace value).toList = Words.squeeze isWhitespace ' ' value.toList := by
  unfold collapseSpace splitWhitespace
  rw [String.toList_intercalate, List.map_map]
  have hid : String.toList ∘ String.ofList = id := funext fun l => String.toList_ofList
  rw [hid, List.map_id]
  rfl

theorem collapseSpace_collapseSpace (value : String) : collapseSpace (collapseSpace value) = collapseSpace value := by
  apply String.toList_injective
  rw [toList_collapseSpace, toList_collapseSpace]
  exact Words.squeeze_squeeze (by decide) _

theorem collapseSpace_toUppercase {casing : CaseMapping} (h : casing.UpperLaws) (value : String) :
    collapseSpace (casing.toUppercase (collapseSpace value)) = casing.toUppercase (collapseSpace value) := by
  apply String.toList_injective
  rw [toList_collapseSpace, h.charwise, toList_collapseSpace]
  refine Words.squeeze_flatMap (by decide) ?_ (fun c hc => ⟨?_, h.noWhitespace c hc⟩) _
  · show (casing.toUppercase " ").toList = [' ']
    rw [h.space]
    rfl
  · intro hempty
    exact h.nonempty c (String.toList_injective hempty)

namespace Identifiers

variable {casing : CaseMapping} {rule value normalized : String}

/-- The value that a rule gives, be it empty. -/
inductive Normalizes (casing : CaseMapping) : String → String → String → Prop where
  | digitsOnly (value : String) :
    Normalizes casing "digits_only" value (String.ofList (value.toList.filter Char.isDigit))
  | collapseSpace (value : String) : Normalizes casing "collapse_space" value (collapseSpace value)
  | upperCollapseSpace (value : String) :
    Normalizes casing "upper_collapse_space" value (casing.toUppercase (DiscogsIngestion.collapseSpace value))

theorem normalizeAliasValue_eq_some_iff :
    normalizeAliasValue casing rule value = some normalized ↔
      Normalizes casing rule value normalized ∧ normalized ≠ "" := by
  unfold normalizeAliasValue
  dsimp only
  rw [Option.filter_eq_some_iff, decide_eq_true_iff]
  refine and_congr_left fun _ => ?_
  constructor
  · intro h
    split_ifs at h with hdigits hspace hupper
    · rw [hdigits, ← Option.some.inj h]
      exact .digitsOnly value
    · rw [hspace, ← Option.some.inj h]
      exact .collapseSpace value
    · rw [hupper, ← Option.some.inj h]
      exact .upperCollapseSpace value
  · intro h
    cases h with
    | digitsOnly => rfl
    | collapseSpace => rfl
    | upperCollapseSpace => rfl

/-- What a rule gives, it leaves as it is. -/
theorem Normalizes.fixed (hcasing : casing.UpperLaws) (h : Normalizes casing rule value normalized) :
    Normalizes casing rule normalized normalized := by
  cases h with
  | digitsOnly =>
    have hdigits : Normalizes casing _ _ _ := .digitsOnly (String.ofList (value.toList.filter Char.isDigit))
    rw [String.toList_ofList, List.filter_filter] at hdigits
    simpa only [Bool.and_self] using hdigits
  | collapseSpace =>
    have hspace : Normalizes casing _ _ _ := .collapseSpace (DiscogsIngestion.collapseSpace value)
    rwa [collapseSpace_collapseSpace] at hspace
  | upperCollapseSpace =>
    have hupper : Normalizes casing _ _ _ :=
      .upperCollapseSpace (casing.toUppercase (DiscogsIngestion.collapseSpace value))
    rwa [collapseSpace_toUppercase hcasing, hcasing.idempotent] at hupper

end Identifiers

/-! ## The order of aliases -/

/-- The strict order of aliases: by provider, then by value. -/
def IdentifierAlias.Lt (a b : IdentifierAlias) : Prop :=
  a.provider < b.provider ∨ a.provider = b.provider ∧ a.externalId < b.externalId

namespace IdentifierAlias

/-- The pair that an alias is ordered by. -/
def key (a : IdentifierAlias) : String ×ₗ String := toLex (a.provider, a.externalId)

theorem key_injective : Function.Injective key := by
  intro a b h
  obtain ⟨hprovider, hexternal⟩ := Prod.mk.inj (toLex.injective h)
  cases a
  cases b
  exact congrArg₂ mk hprovider hexternal

theorem le_iff {a b : IdentifierAlias} : a.le b = true ↔ a.key ≤ b.key := by
  unfold le key
  rw [Prod.Lex.toLex_le_toLex]
  simp

theorem lt_iff {a b : IdentifierAlias} : a.Lt b ↔ a.key < b.key := by
  unfold Lt key
  rw [Prod.Lex.toLex_lt_toLex]

end IdentifierAlias

theorem sorted_dedup_strict (aliases : List IdentifierAlias) :
    ((aliases.insertionSort fun a b => a.le b).dedup).Pairwise IdentifierAlias.Lt := by
  have : IsTrans IdentifierAlias fun a b => a.le b = true :=
    ⟨fun a b c hab hbc =>
      IdentifierAlias.le_iff.2 ((IdentifierAlias.le_iff.1 hab).trans (IdentifierAlias.le_iff.1 hbc))⟩
  have : Std.Total fun a b : IdentifierAlias => a.le b = true :=
    ⟨fun a b => (le_total a.key b.key).imp IdentifierAlias.le_iff.2 IdentifierAlias.le_iff.2⟩
  have hsorted := (List.pairwise_insertionSort (fun a b : IdentifierAlias => a.le b = true) aliases).sublist
    (List.dedup_sublist _)
  have hnodup := List.nodup_dedup (aliases.insertionSort fun a b => a.le b)
  refine (hsorted.and hnodup).imp fun {a b} h => IdentifierAlias.lt_iff.2 ?_
  exact lt_of_le_of_ne (IdentifierAlias.le_iff.1 h.1) fun hkey => h.2 (IdentifierAlias.key_injective hkey)

end DiscogsIngestion
