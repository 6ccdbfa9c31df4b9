-- A text is accepted as a value exactly if its tokens are the tokens of that
-- value. The parser never forgets a token: what it has put together so far
-- always tells what it has read.
import SerialLink.Proofs.Json.ReadBack

namespace SerialLink.Json

open Value (tokens tokensOfItems tokensOfMembers)

/-! ## What has been read -/

/-- The tokens of items with a comma behind each. -/
def openItems (items : List Value) : List Token :=
  items.flatMap fun item => item.tokens ++ [.comma]

/-- The tokens of members with a comma behind each. -/
def openMembers (members : List (Text × Value)) : List Token :=
  members.flatMap fun m => .string m.1 :: .colon :: (m.2.tokens ++ [.comma])

theorem tokensOfItems_snoc (items : List Value) (item : Value) :
    tokensOfItems (items ++ [item]) = openItems items ++ item.tokens := by
  induction items with
  | nil => simp [tokensOfItems, openItems]
  | cons first rest ih =>
    have hrest : tokensOfItems (first :: (rest ++ [item])) =
        first.tokens ++ .comma :: tokensOfItems (rest ++ [item]) := by
      cases rest <;> rfl
    rw [List.cons_append, hrest, ih]
    simp [openItems]

theorem tokensOfMembers_snoc (members : List (Text × Value)) (name : Text) (value : Value) :
    tokensOfMembers (members ++ [(name, value)]) =
      openMembers members ++ .string name :: .colon :: value.tokens := by
  induction members with
  | nil => simp [tokensOfMembers, openMembers]
  | cons first rest ih =>
    have hrest : tokensOfMembers (first :: (rest ++ [(name, value)])) =
        .string first.1 :: .colon :: (first.2.tokens ++
          .comma :: tokensOfMembers (rest ++ [(name, value)])) := by
      cases rest <;> rfl
    rw [List.cons_append, hrest, ih]
    simp [openMembers]

/-- The tokens read since the array or object was opened. -/
def Frame.tokens : Frame → List Token
  | .items before => .openBracket :: openItems before.reverse
  | .members before name => .openBrace :: (openMembers before.reverse ++ [.string name, .colon])

def Stage.tokens : Stage → List Token
  | .value _ => []
  | .name _ before => .openBrace :: openMembers before.reverse
  | .colon before word => .openBrace :: (openMembers before.reverse ++ [.string word])
  | .after v => v.tokens

/-- All tokens read so far. -/
def readTokens (stage : Stage) (around : List Frame) : List Token :=
  around.reverse.flatMap Frame.tokens ++ stage.tokens

/-- Where an array or object may end at once, it has nothing in it yet. -/
def Fresh : Stage → List Frame → Prop
  | .value true, .items before :: _ => before = []
  | .name true before, _ => before = []
  | _, _ => True

theorem tokens_of_scalar {token : Token} {value : Value} (h : token.scalar? = some value) :
    value.tokens = [token] := by
  cases token <;> cases h <;> rfl

section Step

variable {stage stage' : Stage} {around around' : List Frame} {token : Token}

/-- A step reads its token. -/
theorem readTokens_step (hfresh : Fresh stage around)
    (h : parseStep stage around token = some (stage', around')) :
    readTokens stage' around' = readTokens stage around ++ [token] ∧ Fresh stage' around' := by
  unfold parseStep at h
  split at h
  case h_4 =>
    obtain ⟨value, hvalue, heq⟩ := Option.map_eq_some_iff.mp h
    cases heq
    exact ⟨by simp [readTokens, Stage.tokens, tokens_of_scalar hvalue], trivial⟩
  -- An array or object that ends at once is an empty one.
  case h_3 =>
    cases h
    obtain rfl := hfresh
    exact ⟨by simp [readTokens, Frame.tokens, Stage.tokens, tokens, openItems, tokensOfItems],
      trivial⟩
  case h_6 =>
    cases h
    obtain rfl := hfresh
    exact ⟨by simp [readTokens, Stage.tokens, tokens, openMembers, tokensOfMembers], trivial⟩
  all_goals cases h
  all_goals
    exact ⟨by simp [readTokens, Frame.tokens, Stage.tokens, tokens, openItems, openMembers,
      tokensOfItems_snoc, tokensOfMembers_snoc], by trivial⟩

/-- A run reads all tokens. -/
theorem tokens_of_parseFrom {rest : List Token} {value : Value} (hfresh : Fresh stage around)
    (h : parseFrom stage around rest = some value) :
    value.tokens = readTokens stage around ++ rest := by
  induction rest generalizing stage around with
  | nil =>
    unfold parseFrom at h
    split at h
    · obtain rfl := Option.some.inj h
      simp [readTokens, Stage.tokens]
    · cases h
    · simp_all
  | cons token rest ih =>
    cases hstep : parseStep stage around token with
    | none => simp [parseFrom, hstep] at h
    | some next =>
      obtain ⟨hread, hnext⟩ := readTokens_step hfresh hstep
      rw [parseFrom, hstep] at h
      rw [ih hnext h, hread, List.append_assoc, List.singleton_append]

end Step

/-- A text that consists of the tokens of the value. -/
def Value.IsText (value : Value) (text : String) : Prop := scan text.toList = some value.tokens

/-- A text is accepted as a value exactly if it is one of that value. -/
theorem Value.parse?_eq_some_iff {text : String} {value : Value} :
    Value.parse? text = some value ↔ value.IsText text := by
  constructor
  · intro h
    obtain ⟨read, hscan, hparse⟩ := Option.bind_eq_some_iff.mp h
    have htokens := tokens_of_parseFrom (show Fresh (.value false) [] from trivial) hparse
    rw [Value.IsText, hscan, htokens]
    rfl
  · intro h
    rw [Value.IsText] at h
    rw [Value.parse?, h, Option.bind_some, ← List.append_nil value.tokens, parse_tokens]
    rfl

end SerialLink.Json
