-- Every JSON value is read back from its compact text. The text of a value is
-- its tokens with nothing between them, and the tokens make up one value only.
import SerialLink.Json.Parser
import SerialLink.Proofs.Json.Scanning

namespace SerialLink.Json

namespace Value

/-! ## The tokens of a value -/

mutual

/-- The tokens that a value is written with. -/
def tokens : Value → List Token
  | .null => [.null]
  | .bool b => [.bool b]
  | .number n => [.number n]
  | .string s => [.string s]
  | .array items => .openBracket :: (tokensOfItems items ++ [.closeBracket])
  | .object members => .openBrace :: (tokensOfMembers members ++ [.closeBrace])

/-- The tokens of items with commas between them. -/
def tokensOfItems : List Value → List Token
  | [] => []
  | [item] => tokens item
  | item :: rest => tokens item ++ .comma :: tokensOfItems rest

/-- The tokens of members with commas between them. -/
def tokensOfMembers : List (Text × Value) → List Token
  | [] => []
  | [(name, value)] => .string name :: .colon :: tokens value
  | (name, value) :: rest =>
    .string name :: .colon :: (tokens value ++ .comma :: tokensOfMembers rest)

end

/-! ## Scanning -/

mutual

theorem scan_compact : ∀ value : Value, scan value.compact = some value.tokens
  | .null => rfl
  | .bool true => rfl
  | .bool false => rfl
  | .number n => scan_number n
  | .string s => scan_string s
  | .array items => by
    rw [compact, scan_mark rfl, scan_append (scan_items items) (ends_of_mark (by simp))]
    rfl
  | .object members => by
    rw [compact, scan_mark rfl, scan_append (scan_members members) (ends_of_mark (by simp))]
    rfl

theorem scan_items : ∀ items : List Value, scan (compactItems items) = some (tokensOfItems items)
  | [] => rfl
  | [item] => scan_compact item
  | item :: next :: rest => by
    rw [compactItems, scan_append (scan_compact item) (ends_of_mark (by simp)), scan_mark rfl,
      scan_items (next :: rest)]
    · rfl
    · simp

theorem scan_members : ∀ members : List (Text × Value),
    scan (compactMembers members) = some (tokensOfMembers members)
  | [] => rfl
  | [(name, value)] => by
    rw [compactMembers, scan_append (scan_string name) (ends_of_mark (by simp)), scan_mark rfl,
      scan_compact value]
    rfl
  | (name, value) :: next :: rest => by
    rw [compactMembers, scan_append (scan_string name) (ends_of_mark (by simp)), scan_mark rfl,
      scan_append (scan_compact value) (ends_of_mark (by simp)), scan_mark rfl,
      scan_members (next :: rest)]
    · rfl
    · simp

end

/-! ## Parsing -/

section Frames

variable {value : Value} {before : List Value} {front : List (Text × Value)} {name : Text}
  {around : List Frame} (rest : List Token)

theorem parse_comma : parseFrom (.after value) (.items before :: around) (.comma :: rest) =
    parseFrom (.value false) (.items (value :: before) :: around) rest := by
  simp [parseFrom, parseStep]

theorem parse_closeBracket :
    parseFrom (.after value) (.items before :: around) (.closeBracket :: rest) =
      parseFrom (.after (.array (before.reverse ++ [value]))) around rest := by
  simp [parseFrom, parseStep]

/-- A member up to its value. -/
theorem parse_name (mayClose : Bool) :
    parseFrom (.name mayClose front) around (.string name :: .colon :: rest) =
      parseFrom (.value false) (.members front name :: around) rest := by
  simp [parseFrom, parseStep]

theorem parse_next_member :
    parseFrom (.after value) (.members front name :: around) (.comma :: rest) =
      parseFrom (.name false ((name, value) :: front)) around rest := by
  simp [parseFrom, parseStep]

theorem parse_closeBrace :
    parseFrom (.after value) (.members front name :: around) (.closeBrace :: rest) =
      parseFrom (.after (.object (front.reverse ++ [(name, value)]))) around rest := by
  simp [parseFrom, parseStep]

end Frames

mutual

theorem parse_tokens : ∀ (value : Value) (mayClose : Bool) (around : List Frame)
    (rest : List Token), parseFrom (.value mayClose) around (value.tokens ++ rest) =
      parseFrom (.after value) around rest
  | .null, mayClose, around, rest | .bool b, mayClose, around, rest
  | .number n, mayClose, around, rest | .string s, mayClose, around, rest => by
    simp [tokens, parseFrom, parseStep, Token.scalar?]
  | .array [], mayClose, around, rest | .object [], mayClose, around, rest => by
    simp [tokens, tokensOfItems, tokensOfMembers, parseFrom, parseStep]
  | .array (item :: more), mayClose, around, rest => by
    have hopen : parseFrom (.value mayClose) around
        ((Value.array (item :: more)).tokens ++ rest) =
          parseFrom (.value true) (.items [] :: around)
            (tokensOfItems (item :: more) ++ .closeBracket :: rest) := by
      simp [tokens, parseFrom, parseStep]
    rw [hopen, parse_items (item :: more) (by simp) true [] around rest]
    rfl
  | .object (member :: more), mayClose, around, rest => by
    have hopen : parseFrom (.value mayClose) around
        ((Value.object (member :: more)).tokens ++ rest) = parseFrom (.name true []) around
          (tokensOfMembers (member :: more) ++ .closeBrace :: rest) := by
      simp [tokens, parseFrom, parseStep]
    rw [hopen, parse_members (member :: more) (by simp) true [] around rest]
    rfl

theorem parse_items : ∀ (items : List Value), items ≠ [] → ∀ (mayClose : Bool)
    (before : List Value) (around : List Frame) (rest : List Token),
    parseFrom (.value mayClose) (.items before :: around)
        (tokensOfItems items ++ .closeBracket :: rest) =
      parseFrom (.after (.array (before.reverse ++ items))) around rest
  | [], h, _, _, _, _ => absurd rfl h
  | [item], _, mayClose, before, around, rest => by
    rw [tokensOfItems, parse_tokens item, parse_closeBracket]
  | item :: next :: more, _, mayClose, before, around, rest => by
    have hitems : tokensOfItems (item :: next :: more) ++ .closeBracket :: rest =
        item.tokens ++ .comma :: (tokensOfItems (next :: more) ++ .closeBracket :: rest) := by
      simp [tokensOfItems]
    rw [hitems, parse_tokens item, parse_comma, parse_items (next :: more) (by simp)]
    simp

theorem parse_members : ∀ (members : List (Text × Value)), members ≠ [] → ∀ (mayClose : Bool)
    (before : List (Text × Value)) (around : List Frame) (rest : List Token),
    parseFrom (.name mayClose before) around
        (tokensOfMembers members ++ .closeBrace :: rest) =
      parseFrom (.after (.object (before.reverse ++ members))) around rest
  | [], h, _, _, _, _ => absurd rfl h
  | [(name, value)], _, mayClose, before, around, rest => by
    rw [tokensOfMembers, List.cons_append, List.cons_append, parse_name, parse_tokens value,
      parse_closeBrace]
  | (name, value) :: next :: more, _, mayClose, before, around, rest => by
    have hmembers : tokensOfMembers ((name, value) :: next :: more) ++ .closeBrace :: rest =
        .string name :: .colon :: (value.tokens ++ .comma ::
          (tokensOfMembers (next :: more) ++ .closeBrace :: rest)) := by
      simp [tokensOfMembers]
    rw [hmembers, parse_name, parse_tokens value, parse_next_member,
      parse_members (next :: more) (by simp)]
    simp

end

/-- Every value is read back from its compact text. -/
theorem parse_toText (value : Value) : parse? value.toText = some value := by
  rw [parse?, toText, String.toList_ofList, scan_compact, Option.bind_some,
    ← List.append_nil value.tokens, parse_tokens]
  rfl

end Value

end SerialLink.Json
