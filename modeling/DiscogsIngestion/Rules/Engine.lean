import DiscogsIngestion.Lib.Table
import DiscogsIngestion.Lib.Walk
import DiscogsIngestion.Record.Block
import DiscogsIngestion.Record.Identifiers

/-!
# The rules engine

Skip conditions, filters and observation rules on the parsed record.

* `CompiledRulesConfig` : the configuration after `compile`;
* `resolveField` : the strings at a dotted field, with every array on the way expanded;
* `checkCondition`, `evaluateRules` : the violations of the observation rules;
* `shouldSkipRecord` : the first skip condition that holds;
* `pointerTokens`, `pointerMut` : a JSON pointer, and the change of the value that it leads to;
* `applyFilters` : the filters, one after the other.
-/

namespace DiscogsIngestion.Rules

/-- Double-precision numbers: how they are read, and their order. -/
class Double (F : Type) where
  parse : String → Option F
  lt : F → F → Bool

/-- The whole numbers among them, as far as they are written with digits alone. -/
instance : Double Nat where
  parse := parseU64
  lt a b := a < b

inductive Severity where
  | error
  | warning
  | info
  deriving DecidableEq, Repr

/-- The condition of a rule. A regular expression is what it matches. -/
inductive CompiledCondition (F : Type) where
  | range (min max : Option F)
  | required
  | regex (isMatch : String → Bool)
  | length (min max : Option Nat)
  | enum (values : List String)

structure CompiledRule (F : Type) where
  name : String
  field : String
  condition : CompiledCondition F
  severity : Severity

structure CompiledSkipCondition where
  field : String
  containsLower : String
  reason : String
  deriving DecidableEq, Repr

inductive CompiledFilterCondition (F : Type) where
  | removeMatching (field : String) (isMatch : String → Bool) (reason : String)
  | nullifyWhen (field : String) (below above : Option F) (reason : String)

structure CompiledRulesConfig (F : Type) where
  rules : Table String (List (CompiledRule F))
  skipConditions : Table String (List CompiledSkipCondition)
  filters : Table String (List (CompiledFilterCondition F))

structure Violation where
  ruleName : String
  severity : Severity
  field : String
  fieldValue : String
  deriving DecidableEq, Repr

structure SkipInfo where
  reason : String
  field : String
  fieldValue : String
  deriving DecidableEq, Repr

structure FilterAction where
  field : String
  removedCount : Nat
  removedValues : List String
  reason : String
  deriving DecidableEq, Repr

variable {F : Type}

namespace CompiledRulesConfig

variable (config : CompiledRulesConfig F) (dataType : String)

def rulesFor : List (CompiledRule F) := (config.rules.lookup dataType).getD []

def skipConditionsFor : List CompiledSkipCondition := (config.skipConditions.lookup dataType).getD []

def filtersFor : List (CompiledFilterCondition F) := (config.filters.lookup dataType).getD []

end CompiledRulesConfig

/-! ## Fields -/

def segments (field : String) : List String := (field.toList.splitOn '.').map String.ofList

/-- One segment of a field: the child under this key, or the elements of the array there. -/
def child (segment : String) : Value → Option (List Value)
  | .object map =>
    match Map.get segment map with
    | some (.array arr) => some arr
    | some other => some [other]
    | none => none
  | _ => none

/-- The text of a scalar. Null resolves to the empty string. -/
def scalar : Value → Option String
  | .string s => some s
  | .number n => some n.toString
  | .null => some ""
  | _ => none

/-- All scalars at a field: segment by segment, from all values that have been reached. -/
def resolveField (value : Value) (field : String) : List String :=
  (Walk.places child (segments field) value).filterMap scalar

/-! ## Rules -/

section Evaluation

variable [Double F]

def outside (min max : Option F) (num : F) : Bool :=
  min.any (fun minVal => Double.lt num minVal) || max.any fun maxVal => Double.lt maxVal num

/-- Whether a value violates a condition. A required field is looked at as a whole. -/
def checkCondition (condition : CompiledCondition F) (value : String) : Bool :=
  match condition with
  | .range min max => (Double.parse value).any (outside min max)
  | .required => false
  | .regex isMatch => isMatch value
  | .length min max => min.any (fun minVal => value.length < minVal) || max.any fun maxVal => maxVal < value.length
  | .enum values => !values.contains value

def CompiledRule.violation (rule : CompiledRule F) (fieldValue : String) : Violation :=
  ⟨rule.name, rule.severity, rule.field, fieldValue⟩

def evaluateRule (rule : CompiledRule F) (record : Value) : List Violation :=
  let fieldValues := resolveField record rule.field
  match rule.condition with
  | .required =>
    if fieldValues = [] then [rule.violation ""]
    else (fieldValues.filter fun val => val = "").map rule.violation
  | condition => (fieldValues.filter (checkCondition condition)).map rule.violation

def evaluateRules (config : CompiledRulesConfig F) (dataType : String) (record : Value) : List Violation :=
  (config.rulesFor dataType).flatMap fun rule => evaluateRule rule record

end Evaluation

/-! ## Skip conditions -/

def containsString (s pattern : String) : Bool := s.toList.tails.any fun tail => pattern.toList.isPrefixOf tail

def shouldSkipRecord (casing : CaseMapping) (config : CompiledRulesConfig F) (dataType : String) (record : Value) :
    Option SkipInfo :=
  (config.skipConditionsFor dataType).findSome? fun cond =>
    ((resolveField record cond.field).find? fun val =>
      containsString (casing.toLowercase val) cond.containsLower).map fun val => ⟨cond.reason, cond.field, val⟩

/-! ## JSON pointers -/

def replacePair (a b c : Char) : List Char → List Char
  | x :: y :: rest =>
    if x = a ∧ y = b then c :: replacePair a b c rest else x :: replacePair a b c (y :: rest)
  | chars => chars

/-- The tokens of the pointer that is made of these segments, with `~1` and `~0` replaced. -/
def pointerTokens (segments : List String) : List String :=
  (("/".intercalate segments).toList.splitOn '/').map fun token =>
    String.ofList (replacePair '~' '0' '~' (replacePair '~' '1' '/' token))

/-- An array index: no sign, no leading zero. -/
def parseIndex (token : String) : Option Nat :=
  match token.toList with
  | '+' :: _ => none
  | '0' :: _ :: _ => none
  | _ => parseU64 token

/-- Change the value that a pointer leads to, if it leads to one and the change is made. -/
def pointerMut {γ : Type} (change : Value → Option (Value × γ)) : List String → Value → Option (Value × γ)
  | [], value => change value
  | token :: tokens, .object map =>
    match Map.get token map with
    | some value =>
      (pointerMut change tokens value).map fun (value', result) => (.object (Map.insert token value' map), result)
    | none => none
  | token :: tokens, .array items =>
    match parseIndex token with
    | some i =>
      match items[i]? with
      | some value => (pointerMut change tokens value).map fun (value', result) => (.array (items.set i value'), result)
      | none => none
    | none => none
  | _ :: _, _ => none

/-! ## Filters -/

/-- The string that a filter removes from an array. -/
def matching (isMatch : String → Bool) : Value → Option String
  | .string s => if isMatch s then some s else none
  | _ => none

/-- Remove what matches under this key: strings of an array, or the only string with its key. -/
def removeAt (leaf : String) (isMatch : String → Bool) : Value → Option (Value × Nat × List String)
  | .object map =>
    match Map.get leaf map with
    | some (.array arr) =>
      let kept := arr.filter fun elem => (matching isMatch elem).isNone
      some (.object (Map.insert leaf (.array kept) map), arr.length - kept.length, arr.filterMap (matching isMatch))
    | some (.string s) => if isMatch s then some (.object (Map.remove leaf map), 1, [s]) else none
    | _ => none
  | _ => none

/-- The tokens of the pointer to the object that bears the leaf. -/
def parentTokens (field : String) : List String :=
  match (segments field).dropLast with
  | [] => []
  | parentSegments => pointerTokens parentSegments

def leafOf (field : String) : String := (segments field).getLastD ""

/-- The leading date component of a date-like string. -/
def parseLeadingYear [Double F] (value : String) : Option F :=
  let token := trim (String.ofList (value.toList.takeWhile fun c => c ∉ ['-', '/', '.', ' ', 'T']))
  if token = "" then none else Double.parse token

/-- The number that a filter compares: the value as a whole, or else its leading year. -/
def numberOf [Double F] (value : String) : Option F := (Double.parse value).or (parseLeadingYear value)

/-- The text of a value that a range is compared with. -/
def compared : Value → Option String
  | .string s => some s
  | .number n => some n.toString
  | _ => none

def applyFilter [Double F] (cond : CompiledFilterCondition F) (record : Value) : Value × List FilterAction :=
  match cond with
  | .removeMatching field isMatch reason =>
    match pointerMut (removeAt (leafOf field) isMatch) (parentTokens field) record with
    | some (record, removedCount, removedValues) =>
      (record, if 0 < removedCount then [⟨field, removedCount, removedValues, reason⟩] else [])
    | none => (record, [])
  | .nullifyWhen field below above reason =>
    match record with
    | .object obj =>
      match (Map.get field obj).bind compared with
      | some strVal =>
        if (numberOf strVal).any (outside below above) then
          (.object (Map.insert field .null obj), [⟨field, 1, [strVal], reason⟩])
        else (record, [])
      | none => (record, [])
    | _ => (record, [])

/-- The filters of a data type, one after the other, with what they have done. -/
def applyFilters [Double F] (config : CompiledRulesConfig F) (dataType : String) (record : Value) :
    Value × List FilterAction :=
  (config.filtersFor dataType).foldl (fun (record, actions) cond =>
    let (record, new) := applyFilter cond record
    (record, actions ++ new)) (record, [])

end DiscogsIngestion.Rules
