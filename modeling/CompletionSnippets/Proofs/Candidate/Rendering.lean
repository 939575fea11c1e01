import CompletionSnippets.Candidate.Intake
import CompletionSnippets.Proofs.Json.Reading
import CompletionSnippets.Proofs.Json.Writing
import Mathlib.Data.List.Forall2
import Mathlib.Data.List.Perm.Basic

/-!
# Replies in JSON

A reply may be written in many ways: with blanks, escapes and spellings of numbers as JSON
allows, with the keys of a candidate in any order and keys among them that mean nothing, and
without the type or the package when these are empty. All of them are taken in as the reply,
unless it only reports a crash, and then the report is what is taken in. Nothing is asked of
the values under other keys but that they be JSON and do not nest too deeply.
-/
namespace CompletionSnippets
open Json Json.Value

namespace Candidate

/-- The keys that mean something in a candidate. -/
def fieldKeys : List Text :=
  ["class".toList, "name".toList, "type".toList, "package".toList]

/-- The members that a field may be written as which may be left out when it is empty. -/
inductive MayBeLeftOut (key : Text) : Text → List (Text × Value) → Prop
  | written (t : Text) : MayBeLeftOut key t [(key, .string t)]
  | leftOut : MayBeLeftOut key [] []

/-- The members may be written for the candidate. -/
inductive MembersOf (c : Candidate) (members : List (Text × Value)) : Prop
  | mk {type package others : List (Text × Value)}
      (htype : MayBeLeftOut "type".toList c.type type)
      (hpackage : MayBeLeftOut "package".toList c.package package)
      (hothers : ∀ m ∈ others, m.1 ∉ fieldKeys)
      (hperm : members.Perm ([("class".toList, .string c.category),
        ("name".toList, .string c.name)] ++ (type ++ (package ++ others))))

section Fields
variable {members : List (Text × Value)} {key : Text}

theorem field?_of_perm_singleton {k t : Text}
    (h : (members.filter fun m => m.1 == key).Perm [(k, .string t)]) :
    field? members key = some (some t) := by
  rw [field?, List.perm_singleton.mp h]

theorem field?_of_perm_nil (h : (members.filter fun m => m.1 == key).Perm []) :
    field? members key = some none := by
  rw [field?, List.perm_nil.mp h]

theorem exists_field? {t : Text} {found : List (Text × Value)} (hfound : MayBeLeftOut key t found)
    (h : (members.filter fun m => m.1 == key).Perm found) :
    ∃ x, field? members key = some x ∧ x.getD [] = t := by
  cases hfound with
  | written => exact ⟨_, field?_of_perm_singleton h, rfl⟩
  | leftOut => exact ⟨_, field?_of_perm_nil h, rfl⟩

end Fields

theorem MayBeLeftOut.filter {key t : Text} {found : List (Text × Value)}
    (h : MayBeLeftOut key t found) (k : Text) :
    found.filter (fun m => m.1 == k) = if key == k then found else [] := by
  cases h with
  | written =>
    rw [List.filter_singleton, Bool.cond_eq_ite]
  | leftOut => rw [List.filter_nil, ite_self]

/-- A candidate is read from every object that may be written for it. -/
theorem ofValue?_object {c : Candidate} {members : List (Text × Value)} (h : MembersOf c members) :
    ofValue? (.object members) = some c := by
  obtain @⟨type, package, others, htype, hpackage, hothers, hperm⟩ := h
  have hfilter : ∀ key ∈ fieldKeys, (members.filter fun m => m.1 == key).Perm
      (([("class".toList, .string c.category), ("name".toList, .string c.name)].filter
          fun m => m.1 == key) ++
        ((if "type".toList == key then type else []) ++
          (if "package".toList == key then package else []))) := by
    intro key hkey
    have hnone : others.filter (fun m => m.1 == key) = [] := by
      refine List.filter_eq_nil_iff.mpr fun m hm heq => ?_
      obtain rfl := beq_iff_eq.mp heq
      exact hothers m hm hkey
    have h := hperm.filter fun m => m.1 == key
    rwa [List.filter_append, List.filter_append, List.filter_append, htype.filter, hpackage.filter,
      hnone, List.append_nil] at h
  have hcategory : field? members "class".toList = some (some c.category) :=
    field?_of_perm_singleton (hfilter "class".toList (by decide))
  have hname : field? members "name".toList = some (some c.name) :=
    field?_of_perm_singleton (hfilter "name".toList (by decide))
  have htypes : (members.filter fun m => m.1 == "type".toList).Perm (type ++ []) :=
    hfilter "type".toList (by decide)
  rw [List.append_nil] at htypes
  obtain ⟨foundType, htypeField, hgetType⟩ := exists_field? htype htypes
  obtain ⟨foundPackage, hpackageField, hgetPackage⟩ :=
    exists_field? hpackage (hfilter "package".toList (by decide))
  simp only [ofValue?, hcategory, hname, htypeField, hpackageField, Option.bind_eq_bind,
    Option.bind_some, hgetType, hgetPackage]
  rfl

end Candidate

namespace Reply

def valueOf (n : Nat) (objects : List (List (Text × Value))) : Value :=
  .array [.natural n, .array (objects.map .object)]

theorem mapM_ofValue? {cs : List Candidate} {objects : List (List (Text × Value))}
    (h : List.Forall₂ Candidate.MembersOf cs objects) :
    (objects.map Value.object).mapM Candidate.ofValue? = some cs := by
  induction h with
  | nil => rfl
  | cons hc _ ih =>
    rw [List.map_cons, List.mapM_cons, Candidate.ofValue?_object hc, ih]
    rfl

theorem ofValue?_valueOf {n : Nat} {cs : List Candidate} {objects : List (List (Text × Value))}
    (hn : n < Text.wordLimit) (h : List.Forall₂ Candidate.MembersOf cs objects) :
    ofValue? (valueOf n objects) = some { prefixLength := n, candidates := cs } := by
  have hnatural := Number.natural?_ofNat hn
  simp only [valueOf, Value.natural, ofValue?, hnatural, mapM_ofValue? h, Option.bind_eq_bind,
    Option.bind_some]
  rfl

theorem ofJson_written {n : Nat} {cs : List Candidate} {objects : List (List (Text × Value))}
    {t : Text} (hn : n < Text.wordLimit) (hobjects : List.Forall₂ Candidate.MembersOf cs objects)
    (ht : (valueOf n objects).WrittenAlone t)
    (hdepth : (valueOf n objects).depth ≤ Step.nestingLimit) :
    ofJson t = .ok { prefixLength := n, candidates := cs } := by
  have hblank : ¬ t.isAllBlank := by
    obtain ⟨b, s, a, -, hs, -, rfl⟩ := ht
    have hbracket : '[' ∈ b ++ (s ++ a) :=
      List.mem_append_right b (List.mem_append_left a hs.mem_bracket)
    intro hall
    exact absurd (List.all_eq_true.mp hall '[' hbracket) (by decide)
  rw [ofJson, if_neg hblank, Value.scan_written ht hdepth]
  simp only [ofValue?_valueOf hn hobjects]
  rfl

/-- Every text that may be written for a reply is taken in as the reply, or as the report of a
crash when the reply is nothing else. -/
theorem ofText_written {n : Nat} {cs : List Candidate} {objects : List (List (Text × Value))}
    {t : Text} (hn : n < Text.wordLimit) (hobjects : List.Forall₂ Candidate.MembersOf cs objects)
    (ht : (valueOf n objects).WrittenAlone t)
    (hdepth : (valueOf n objects).depth ≤ Step.nestingLimit) :
    ((∀ c, cs = [c] → c.category ≠ Candidate.crashCategory) →
      ofText .json t = .ok { prefixLength := n, candidates := cs }) ∧
    ∀ c, cs = [c] → c.category = Candidate.crashCategory →
      ofText .json t = .error (.crashed c.type) := by
  have hwritten : written .json t = .ok { prefixLength := n, candidates := cs } := by
    rw [written, ofJson_written hn hobjects ht hdepth]
    rfl
  exact ofText_of_written hwritten

def crash : Candidate := { category := Candidate.crashCategory, name := [], type := ['t'] }

def crashMembers : List (Text × Value) :=
  [("class".toList, .string Candidate.crashCategory), ("name".toList, .string []),
    ("type".toList, .string ['t'])]

theorem membersOf_crash : Candidate.MembersOf crash crashMembers := by
  have hothers : ∀ m ∈ ([] : List (Text × Value)), m.1 ∉ Candidate.fieldKeys := nofun
  exact .mk (.written ['t']) .leftOut hothers (.refl _)

theorem written_crash : (Value.object crashMembers).Written (render (.object crashMembers)) := by
  have hstrings : ∀ m ∈ crashMembers, Rendered 0 m.2 := by
    simp only [crashMembers, List.forall_mem_cons]
    exact ⟨rendered_string 0 _, rendered_string 0 _, rendered_string 0 _, nofun⟩
  exact (rendered_object hstrings).written

/-- `1.5E+0`, which is not written as the writer would write it. -/
def oneAndAHalf : Number where
  negative := false
  whole := ['1']
  fraction := ['5']
  exponent := some { negative := false, digits := ['0'] }

def idle : Text × Value := (['x'], .array [.object [], .number oneAndAHalf])

def strange : Candidate := { category := "var".toList, name := ['é', '/'] }

def strangeMembers : List (Text × Value) :=
  [idle, ("name".toList, .string ['é', '/']), ("class".toList, .string "var".toList)]

theorem membersOf_strange : Candidate.MembersOf strange strangeMembers := by
  have hidle : ∀ m ∈ [idle], m.1 ∉ Candidate.fieldKeys := by
    intro m hm
    rw [List.mem_singleton.mp hm]
    decide
  have hreverse := List.reverse_perm
    [("class".toList, Value.string "var".toList), ("name".toList, .string ['é', '/']), idle]
  exact .mk .leftOut .leftOut hidle hreverse

/-- The strange candidate and the other one, with blanks, escapes and an empty object. -/
def strangeText : Text :=
  (" [7,[\x7b\"x\":[\x7b \x7d,1.5E+0],\"name\" : \"\\u00E9\\/\"," ++
    "\"class\":\"var\"\x7d,\x7b\"class\":\"PANIC\",\"name\":\"\",\"type\":\"t\"\x7d]]\n").toList

theorem writtenAlone_strange :
    (valueOf 7 [strangeMembers, crashMembers]).WrittenAlone strangeText := by
  have hspace : Blanks [' '] := by decide
  have hdigit : ∀ c, Text.isDigit c → Digits [c] := fun c hc =>
    ⟨List.cons_ne_nil c [], List.forall_mem_singleton.mpr hc⟩
  have hnumber : NumberWritten oneAndAHalf _ :=
    .mk (n := oneAndAHalf) (hdigit '1' rfl) (by decide) (.some (hdigit '5' rfl))
      (.some (.inr rfl) .plus (hdigit '0' rfl)) (by decide)
  have hidle := MemberWritten.mk blanks_nil (stringWritten_escape ['x']) blanks_nil blanks_nil
    (.array (.cons blanks_nil (.emptyObject hspace) blanks_nil
      (.last blanks_nil (.number hnumber) blanks_nil))) blanks_nil
  have hunit : HexWritten 'é'.toNat ['0', '0', 'E', '9'] :=
    .mk (w := 0) (x := 0) (y := 14) (z := 9) (by decide) (by decide) (by decide) (by decide)
  have hslash : CharWritten '/' ['\\', '/'] := .letter (by decide)
  have hname := MemberWritten.mk blanks_nil (stringWritten_escape "name".toList) hspace hspace
    (.string (.cons (.unit hunit) (.cons hslash .nil))) blanks_nil
  have hclass := (rendered_member (m := ("class".toList, _)) (rendered_string 0 "var".toList)).1
  have hfirst := Written.object (.cons hidle (.cons hname (.last hclass)))
  have hobjects := Written.array (.cons blanks_nil hfirst blanks_nil
    (.last blanks_nil written_crash blanks_nil))
  have hnatural := (rendered_natural 0 (n := 7) (by decide)).written
  have hreply := Written.array (.cons blanks_nil hnatural blanks_nil
    (.last blanks_nil hobjects blanks_nil))
  exact ⟨[' '], _, ['\n'], hspace, hreply, by decide, by decide⟩

def crashText : Text :=
  "[0,[\x7b\"class\":\"PANIC\",\"name\":\"\",\"type\":\"t\"\x7d]]".toList

theorem writtenAlone_crash : (valueOf 0 [crashMembers]).WrittenAlone crashText := by
  have hobjects := Written.array (.last blanks_nil written_crash blanks_nil)
  have hnatural := (rendered_natural 0 (n := 0) (by decide)).written
  have hreply := Written.array (.cons blanks_nil hnatural blanks_nil
    (.last blanks_nil hobjects blanks_nil))
  exact ⟨[], _, [], blanks_nil, hreply, blanks_nil, by decide⟩

theorem ofText_written_strange :
    List.Forall₂ Candidate.MembersOf [strange, crash] [strangeMembers, crashMembers] ∧
      (valueOf 7 [strangeMembers, crashMembers]).WrittenAlone strangeText ∧
      (valueOf 7 [strangeMembers, crashMembers]).depth ≤ Step.nestingLimit ∧
      ofText .json strangeText = .ok { prefixLength := 7, candidates := [strange, crash] } ∧
      ofText .json crashText = .error (.crashed ['t']) := by
  have halone : List.Forall₂ Candidate.MembersOf [crash] [crashMembers] :=
    .cons membersOf_crash .nil
  have hmembers := List.Forall₂.cons membersOf_strange halone
  have hdepth : (valueOf 7 [strangeMembers, crashMembers]).depth ≤ Step.nestingLimit := by decide
  obtain ⟨hok, -⟩ := ofText_written (by decide) hmembers writtenAlone_strange hdepth
  obtain ⟨-, hcrash⟩ := ofText_written (by decide) halone writtenAlone_crash (by decide)
  exact ⟨hmembers, writtenAlone_strange, hdepth, hok nofun, hcrash crash rfl rfl⟩

end Reply
end CompletionSnippets
