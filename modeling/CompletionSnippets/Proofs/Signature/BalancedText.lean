import CompletionSnippets.Proofs.Signature.Spacing
import CompletionSnippets.Proofs.Signature.Assembly

/-!
# Function types in balanced text

A text that begins like a function type and has no outline leaves the parenthesis of its
keyword open. So with balanced parentheses every such text has an outline. Balance is handed
down from a function type to its entries, wherever the text is cut and whatever its braces do,
and from an entry to its identifier and its type.

Hence in a balanced text an entry is read further whenever its type begins like a function
type, and only the nesting limit makes an exception.
-/
namespace CompletionSnippets
open Text Outline

namespace Outline

theorem exists_outline_iff_of_balanced {t : Text} (h : Balanced '(' ')' t) :
    (∃ o, of? t = some o) ↔ opening <+: trim t := by
  constructor
  · rintro ⟨o, ho⟩
    obtain ⟨w, rest, ht, -, -⟩ := of?_eq_some_iff.mp ho
    exact ⟨w ++ ')' :: rest, by rw [ht, List.append_assoc]⟩
  · rintro ⟨u, hu⟩
    have htotal := (balanced_trim_iff.mpr h).2
    rw [← hu, List.count_append, List.count_append, show opening.count '(' = 1 from rfl,
      show opening.count ')' = 0 from rfl] at htotal
    cases hclose : closeParen? [] 0 u with
    | none =>
      -- then less is closed than the keyword and what follows it open
      have hle := (closeParen?_eq_none_iff.mp hclose).count_le
      omega
    | some parts =>
      obtain ⟨w, rest⟩ := parts
      obtain ⟨rfl, hw⟩ := closeParen?_eq_some_iff.mp hclose
      exact ⟨_, of?_eq_some_iff.mpr ⟨w, rest, by rw [← hu, List.append_assoc], hw, rfl⟩⟩

/-- What stands behind the parameters of a balanced text is balanced. -/
theorem balanced_behind {w rest : Text} (hw : Balanced '(' ')' w)
    (h : Balanced '(' ')' (opening ++ w ++ ')' :: rest)) : Balanced '(' ')' rest := by
  have hword : Balanced '(' ')' ['f', 'u', 'n', 'c'] := by decide
  have hfront := hword.append (hw.enclose (by decide))
  have hparts : opening ++ w ++ ')' :: rest =
      ['f', 'u', 'n', 'c'] ++ ('(' :: w ++ [')']) ++ rest := by
    simp [opening]
  rwa [hparts, hfront.append_left_iff] at h

/-- The entries of a balanced text are balanced. -/
theorem balanced_of_mem_tokens {t token : Text} {o : Outline} (h : Balanced '(' ')' t)
    (ho : of? t = some o) (htoken : token ∈ o.paramTokens ++ o.resultTokens) :
    Balanced '(' ')' token := by
  rcases List.mem_append.mp htoken with hparam | hresult
  · exact (tokens_paramTokens ho).2 token hparam
  rcases tokens_resultTokens ho with ⟨-, hlisted⟩ | ⟨r, hsingle, hr, -⟩
  · exact hlisted token hresult
  · obtain ⟨w, rest, ht, hw, rfl⟩ := of?_eq_some_iff.mp ho
    rw [hr, List.mem_singleton] at hresult
    rw [hresult, (resultText_eq_single_iff.mp hsingle).1, balanced_trim_iff]
    rw [← balanced_trim_iff, ht] at h
    exact balanced_behind hw h

end Outline

namespace Entry

theorem balanced_divide {token : Text} (h : Balanced '(' ')' token) :
    Balanced '(' ')' (divide token.trim).2 := by
  rw [← type_ofToken 0]
  exact (balanced_parts 0 h).2

/-- A balanced entry is read further when levels are left and its type begins like a function
type. -/
theorem isSome_signature?_iff (below : Nat) {token : Text} (h : Balanced '(' ')' token) :
    (ofToken (below + 1) token).signature?.isSome ↔
      opening <+: (ofToken (below + 1) token).type := by
  have htrim := trim_divide (trim_trim token)
  rw [type_ofToken, ← htrim, ← exists_outline_iff_of_balanced (balanced_divide h)]
  cases ho : of? (divide token.trim).2 with
  | none => simp [ofToken_of_none _ ho, signature?]
  | some o => simp [ofToken_succ_of_some _ ho, signature?]

theorem signature?_ofToken_zero (token : Text) : (ofToken 0 token).signature? = none := by
  rcases ofToken_cases 0 token with h | ⟨below, o, hbelow, -⟩
  · rw [h, signature?]
  · contradiction

end Entry

namespace Signature

/-- In a text with balanced parentheses every entry and its type are balanced, and an entry is
read as a function type just when it stands within the nesting limit and its type begins like
one. So only at the level behind the limit such a type stays text. -/
theorem read_balanced {t : Text} {s : Signature} (hread : read t = .ok s)
    (hbalanced : Balanced '(' ')' t) {level : Nat} {e : Entry} (he : s.EntryAt level e) :
    Balanced '(' ')' e.raw ∧ Balanced '(' ')' e.type ∧ level ≤ 257 ∧
      (e.signature?.isSome ↔ level ≤ 256 ∧ opening <+: e.type) ∧
      (e.signature? = none → opening <+: e.type → level = 257) := by
  have hlimit : nestingLimit = 256 := rfl
  obtain ⟨o, ho, rfl⟩ := exists_outline_of_read hread
  have hinherited : ∀ (t : Text) o token, Balanced '(' ')' t → of? t = some o →
      token ∈ o.paramTokens ++ o.resultTokens → Balanced '(' ')' (Entry.divide token.trim).2 :=
    fun _ _ _ ht ho htoken => Entry.balanced_divide (balanced_of_mem_tokens ht ho htoken)
  obtain ⟨left, t', o', token, hlevels, ht', ho', htoken, rfl⟩ :=
    he.exists_token_of_inherited hinherited hbalanced ho
  have htokenBalanced := balanced_of_mem_tokens ht' ho' htoken
  have hiff : (Entry.ofToken left token).signature?.isSome ↔
      level ≤ 256 ∧ opening <+: (Entry.ofToken left token).type := by
    cases left with
    | zero =>
      have hbehind : ¬ level ≤ 256 := by omega
      simp [Entry.signature?_ofToken_zero, hbehind]
    | succ below =>
      have hwithin : level ≤ 256 := by omega
      simp [Entry.isSome_signature?_iff below htokenBalanced, hwithin]
  refine ⟨?_, (Entry.balanced_parts left htokenBalanced).2, by omega, hiff, ?_⟩
  · rwa [Entry.raw_ofToken, balanced_trim_iff]
  · intro hplain hopening
    have hbehind : ¬ level ≤ 256 := by
      intro hwithin
      have hsome := hiff.mpr ⟨hwithin, hopening⟩
      rw [hplain] at hsome
      contradiction
    omega

def bareFunc : Entry :=
  .func "func()".toList [] { raw := "func()".toList, params := [], results := [] }

/-- The parameter `x}y`, whose type opens a brace and returns a function. -/
def unevenParam : Entry :=
  let type := "func(m map\x7b, n func()) func()".toList
  .func ("x\x7dy ".toList ++ type) "x\x7dy".toList {
    raw := type
    params := [.plain "m map\x7b, n func()".toList ['m'] "map\x7b, n func()".toList]
    results := [bareFunc] }

/-- A function type with balanced parentheses, one brace too many and one too few. -/
def uneven : Signature where
  raw := "func(".toList ++ unevenParam.raw ++ [')']
  params := [unevenParam]
  results := []

theorem read_balanced_uneven :
    read (' ' :: uneven.raw) = .ok uneven ∧ Balanced '(' ')' (' ' :: uneven.raw) ∧
      uneven.EntryAt 2 bareFunc ∧ Balanced '(' ')' bareFunc.raw ∧ Balanced '(' ')' bareFunc.type ∧
      2 ≤ 257 ∧ (bareFunc.signature?.isSome ↔ 2 ≤ 256 ∧ opening <+: bareFunc.type) ∧
      (bareFunc.signature? = none → opening <+: bareFunc.type → 2 = 257) := by
  have hread : read (' ' :: uneven.raw) = .ok uneven := by cbv
  have hbalanced : Balanced '(' ')' (' ' :: uneven.raw) := by decide
  have hnode : uneven.NodeAt 1 _ := .entry .root (e := unevenParam) List.mem_cons_self rfl
  have hentry : uneven.EntryAt 2 bareFunc := .mk hnode (List.mem_cons_of_mem _ List.mem_cons_self)
  exact ⟨hread, hbalanced, hentry, read_balanced hread hbalanced hentry⟩

end Signature
end CompletionSnippets
