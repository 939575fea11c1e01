import CompletionSnippets.Proofs.Template.Reader

/-!
# Legible templates

A template is legible when its texts have no dollar sign and no backslash and no
digit follows the numeral of a bare stop. A legible template, written out and read,
gives the marks of its parts, whatever is written behind it. Text inside placeholders
is written with its closing braces escaped and outside without, and the reader tells
the two apart by the placeholders that are open.
-/
namespace CompletionSnippets
open Text Template

/-- Text without the two characters that mark up a template. -/
def Text.Unmarked (t : Text) : Prop := ∀ c ∈ t, c ≠ '$' ∧ c ≠ '\\'

instance (t : Text) : Decidable (Unmarked t) :=
  List.decidableBAll (fun c => c ≠ '$' ∧ c ≠ '\\') t

theorem Text.unmarked_append {s t : Text} : Unmarked (s ++ t) ↔ Unmarked s ∧ Unmarked t := by
  simp only [Unmarked, List.forall_mem_append]

theorem Text.unmarked_cons {c : Char} {t : Text} :
    Unmarked (c :: t) ↔ (c ≠ '$' ∧ c ≠ '\\') ∧ Unmarked t := by
  simp only [Unmarked, List.forall_mem_cons]

mutual

def Piece.marks : Piece → List Mark
  | .text t => t.map .char
  | .stop n => [.stop n]
  | .placeholder n content => .enter n :: Template.marks content ++ [.leave n]

def Template.marks : List Piece → List Mark
  | [] => []
  | piece :: rest => piece.marks ++ Template.marks rest

end

mutual

/-- A part whose texts are unmarked and whose stops stand apart from digits. -/
def Piece.Legible : Piece → Prop
  | .text t => Unmarked t
  | .stop _ => True
  | .placeholder _ content => Template.Legible content

def Template.Legible : List Piece → Prop
  | [] => True
  | .stop _ :: rest => (∀ inside, NoDigitFirst (renderPieces inside rest)) ∧ Template.Legible rest
  | piece :: rest => piece.Legible ∧ Template.Legible rest

end

namespace Template

@[simp] theorem marks_append (a b : List Piece) : marks (a ++ b) = marks a ++ marks b := by
  induction a with
  | nil => rfl
  | cons piece a ih => simp [marks, ih]

section Gather
variable {α : Type} (pick : Mark → Option α)

/-- What is picked from the marks of a template, from left to right. -/
def gather (t : Template) : List α := (marks t).filterMap pick

theorem gather_append (a b : Template) :
    gather pick (a ++ b) = gather pick a ++ gather pick b := by
  rw [gather, marks_append]
  exact List.filterMap_append

theorem gather_text (t : Text) (rest : Template) :
    gather pick (.text t :: rest) =
      t.filterMap (fun c => pick (.char c)) ++ gather pick rest := by
  rw [gather, marks, Piece.marks, List.filterMap_append, List.filterMap_map]
  rfl

theorem gather_stop (n : Nat) (rest : Template) :
    gather pick (.stop n :: rest) = (pick (.stop n)).toList ++ gather pick rest := by
  rw [gather, marks, Piece.marks, List.filterMap_append]
  cases h : pick (.stop n) <;> simp [h, gather]

theorem gather_placeholder (n : Nat) (content rest : Template) :
    gather pick (.placeholder n content :: rest) =
      (pick (.enter n)).toList ++ gather pick content ++ (pick (.leave n)).toList ++
        gather pick rest := by
  rw [gather, marks, Piece.marks, List.filterMap_append]
  cases henter : pick (.enter n) <;> cases hleave : pick (.leave n) <;>
    simp [henter, hleave, gather]

end Gather

@[simp] theorem legible_text {t : Text} {rest : List Piece} :
    Legible (.text t :: rest) ↔ Unmarked t ∧ Legible rest := by
  rw [Legible, Piece.Legible]
  simp

@[simp] theorem legible_placeholder {n : Nat} {content rest : List Piece} :
    Legible (.placeholder n content :: rest) ↔ Legible content ∧ Legible rest := by
  rw [Legible, Piece.Legible]
  simp

/-- Text as it is written inside a placeholder or outside. -/
def written (inside : Bool) (t : Text) : Text := if inside then escape t else t

theorem written_cons {inside : Bool} {c : Char} (hc : c ≠ '}') (t : Text) :
    written inside (c :: t) = c :: written inside t := by
  cases inside with
  | false => rfl
  | true => simp [written, escape, hc]

end Template

namespace Mark

theorem read?_written (opened : List Nat) (rest : Text) {t : Text} (h : Unmarked t) :
    read? opened (written (!opened.isEmpty) t ++ rest) =
      (read? opened rest).map (t.map char ++ ·) := by
  induction t with
  | nil => cases opened <;> simp [written, escape]
  | cons c t ih =>
    obtain ⟨hc, ht⟩ := unmarked_cons.mp h
    have hfirst : first? opened (written (!opened.isEmpty) (c :: t) ++ rest) =
        some (char c, written (!opened.isEmpty) t ++ rest) := by
      by_cases hbrace : c = '}'
      · -- escaped where it would end a placeholder, bare where none is open
        subst hbrace
        cases opened with
        | nil => exact first?_brace _
        | cons n opened => exact first?_escaped _ _
      · rw [written_cons hbrace]
        exact first?_char ⟨hc.1, hc.2, hbrace⟩ _ _
    rw [read?_of_first hfirst, openedAfter, ih ht]
    cases read? opened rest <;> simp

theorem map_prepend (first second : List Mark) (behind : Option (List Mark)) :
    (behind.map (second ++ ·)).map (first ++ ·) = behind.map (first ++ second ++ ·) := by
  cases behind <;> simp

/-- Legible parts are read as their marks, whatever is written behind them. The open
placeholders say how text is written; they are the same behind the parts as before. -/
theorem read?_renderPieces (opened : List Nat) :
    ∀ (ps : List Piece) (rest : Text), Legible ps → NoDigitFirst rest →
      read? opened (renderPieces (!opened.isEmpty) ps ++ rest) =
        (read? opened rest).map (marks ps ++ ·)
  | [], rest, _, _ => by simp [renderPieces, marks]
  | .text t :: ps, rest, h, hrest => by
    obtain ⟨ht, hps⟩ := legible_text.mp h
    have htext := read?_written opened (renderPieces (!opened.isEmpty) ps ++ rest) ht
    rw [read?_renderPieces opened ps rest hps hrest, map_prepend] at htext
    rw [renderPieces, renderPiece, List.append_assoc]
    exact htext
  | .stop n :: ps, rest, h, hrest => by
    obtain ⟨hdigit, hps⟩ := h
    have hstop := read?_of_first (first?_stop n opened ((hdigit (!opened.isEmpty)).append hrest))
    rw [openedAfter, read?_renderPieces opened ps rest hps hrest] at hstop
    rw [renderPieces, renderPiece, List.append_assoc, List.cons_append, hstop]
    exact map_prepend [stop n] (marks ps) _
  | .placeholder n content :: ps, rest, h, hrest => by
    obtain ⟨hcontent, hps⟩ := legible_placeholder.mp h
    have hbrace : ∀ t, NoDigitFirst ('}' :: t) := fun t c hc => by cases hc; rfl
    have hleave := read?_of_first
      (first?_leave n opened (renderPieces (!opened.isEmpty) ps ++ rest))
    rw [openedAfter, List.tail_cons, read?_renderPieces opened ps rest hps hrest] at hleave
    have hinside := read?_renderPieces (n :: opened) content
      ('}' :: (renderPieces (!opened.isEmpty) ps ++ rest)) hcontent (hbrace _)
    rw [List.isEmpty_cons, Bool.not_false, hleave] at hinside
    have henter := read?_of_first (first?_enter n opened
      (renderPieces true content ++ '}' :: (renderPieces (!opened.isEmpty) ps ++ rest)))
    rw [openedAfter, hinside] at henter
    -- the placeholder is written as its beginning, its content and its end
    have hrender : renderPieces (!opened.isEmpty) (.placeholder n content :: ps) ++ rest =
        '$' :: '{' :: (Text.decimal n ++ ':' ::
          (renderPieces true content ++ '}' :: (renderPieces (!opened.isEmpty) ps ++ rest))) := by
      simp [renderPieces, renderPiece]
    rw [hrender, henter]
    simp [marks, Piece.marks, Option.map_map, Function.comp_def]

/-- A legible template is well formed: reading what is written gives its marks and
leaves no placeholder open. -/
theorem read?_render {t : Template} (h : Legible t) : read? [] t.render = some (marks t) := by
  have hread := read?_renderPieces [] t [] h (by simp [NoDigitFirst])
  rw [read?_nil] at hread
  simpa [render] using hread

end Mark
end CompletionSnippets
