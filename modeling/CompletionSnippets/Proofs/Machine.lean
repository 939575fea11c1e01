import CompletionSnippets.Machine

/-!
# Runs that touch nothing

Most of what a run does leaves its machine as it is, but for looks at the clock and for notices.
What such a computation gives can depend on the clock, so it is told by a property. The property
holds from every scene that is the same but for the clock and the notices; hence computations of
this kind can be put one behind the other, and along a list.

A file that is read is asked for its size first, and the size decides how it is read. Where the
file system is lawful, the bytes are those of the file in each of the ways.
-/
namespace CompletionSnippets

variable {σ α β : Type} {fs : FileSystem σ}

/-- The scenes differ in looks at the clock and in notices only. -/
structure Scene.Untouched (before after : Scene σ) : Prop where
  files : after.files = before.files
  stdin : after.stdin = before.stdin
  times : after.times = before.times
  printed : after.printed = before.printed
  complaints : after.complaints = before.complaints

theorem Scene.Untouched.refl (scene : Scene σ) : scene.Untouched scene := ⟨rfl, rfl, rfl, rfl, rfl⟩

/-- The computation gives a value with the property and touches nothing. -/
def Gives (before : Scene σ) (x : StateM (Scene σ) α) (P : α → Prop) : Prop :=
  ∀ scene, before.Untouched scene → P (x scene).1 ∧ before.Untouched (x scene).2

namespace Gives

variable {before : Scene σ} {x : StateM (Scene σ) α} {P : α → Prop} {Q : β → Prop}

theorem pure {a : α} (h : P a) : Gives before (pure a) P := fun _ hscene => ⟨h, hscene⟩

theorem bind {f : α → StateM (Scene σ) β} (hx : Gives before x P)
    (hf : ∀ a, P a → Gives before (f a) Q) : Gives before (x >>= f) Q := by
  intro scene hscene
  obtain ⟨ha, hafter⟩ := hx scene hscene
  exact hf _ ha _ hafter

theorem mono {P' : α → Prop} (hx : Gives before x P) (h : ∀ a, P a → P' a) :
    Gives before x P' :=
  fun scene hscene => (hx scene hscene).imp_left (h _)

theorem bind_eq {a : α} {f : α → StateM (Scene σ) β} (hx : Gives before x (· = a))
    (hf : Gives before (f a) Q) : Gives before (x >>= f) Q := by
  refine hx.bind fun a' ha => ?_
  rw [ha]
  exact hf

theorem of_eq {a : α} (hx : Gives before x (· = a)) (ha : P a) : Gives before x P := by
  refine hx.mono fun a' ha' => ?_
  rw [ha']
  exact ha

theorem mapM {f : α → StateM (Scene σ) β} {g : α → β} (h : ∀ a, Gives before (f a) (· = g a))
    (as : List α) : Gives before (as.mapM f) (· = as.map g) := by
  induction as with
  | nil => exact .pure rfl
  | cons a as ih =>
    rw [List.mapM_cons]
    exact (h a).bind_eq (ih.bind_eq (.pure rfl))

theorem forM {f : α → StateM (Scene σ) PUnit} (h : ∀ a, Gives before (f a) fun _ => True)
    (as : List α) : Gives before (as.forM f) fun _ => True := by
  induction as with
  | nil => exact .pure trivial
  | cons a as ih => exact (h a).bind fun _ _ => ih

end Gives

namespace FileSystem

variable {before : Scene σ}

theorem gives_note (n : Notice) : Gives before (fs.machine.note n) fun _ => True :=
  fun _ hscene => ⟨trivial, hscene.files, hscene.stdin, hscene.times, hscene.printed,
    hscene.complaints⟩

theorem gives_clock : Gives before fs.machine.clock fun now => ∃ n, now = before.times n :=
  fun scene hscene => ⟨⟨scene.looks, congrFun hscene.times scene.looks⟩, hscene.files,
    hscene.stdin, hscene.times, hscene.printed, hscene.complaints⟩

theorem gives_stdin : Gives before fs.machine.stdin (· = before.stdin) :=
  fun _ hscene => ⟨hscene.stdin, hscene⟩

theorem gives_size (path : Text) :
    Gives before (fs.machine.size path) (· = fs.size before.files path) :=
  fun _ hscene => ⟨congrArg (fs.size · path) hscene.files, hscene⟩

theorem gives_read (path : Text) :
    Gives before (fs.machine.read path) (· = fs.read before.files path) :=
  fun _ hscene => ⟨congrArg (fs.read · path) hscene.files, hscene⟩

theorem gives_map (path : Text) :
    Gives before (fs.machine.map path) (· = fs.map before.files path) :=
  fun _ hscene => ⟨congrArg (fs.map · path) hscene.files, hscene⟩

/-- What comes of reading the file at a path: a file of no bytes is not opened, one of 64 KiB or
more is mapped to memory, and every other one is read. -/
inductive ReadsAs (fs : FileSystem σ) (files : σ) (path : Text) : Except FileFault ByteArray → Prop
  | unknown {fault : FileFault} : fs.size files path = .error fault →
    ReadsAs fs files path (.error fault)
  | empty : fs.size files path = .ok 0 → ReadsAs fs files path (.ok .empty)
  | small {size : Nat} : fs.size files path = .ok size → 0 < size → size < 65536 →
    ReadsAs fs files path (fs.read files path)
  | large {size : Nat} : fs.size files path = .ok size → 65536 ≤ size →
    ReadsAs fs files path (fs.map files path)

theorem gives_contents (path : Text) :
    Gives before (fs.machine.contents path) (fs.ReadsAs before.files path) := by
  refine (gives_size path).bind_eq ?_
  cases hsize : fs.size before.files path with
  | error fault => exact .pure (.unknown hsize)
  | ok size =>
    dsimp only
    split
    · rename_i hzero
      exact .pure (.empty (hzero ▸ hsize))
    rename_i hpos
    split
    · rename_i hlarge
      exact (gives_map path).of_eq (.large hsize hlarge)
    · rename_i hsmall
      exact (gives_read path).of_eq
        (.small hsize (Nat.pos_of_ne_zero hpos) (Nat.lt_of_not_le hsmall))

theorem ReadsAs.eq_bySize {files : σ} {path : Text} {result : Except FileFault ByteArray}
    (h : fs.ReadsAs files path result) :
    result = match fs.size files path with
      | .error fault => .error fault
      | .ok size =>
        if size = 0 then .ok .empty
        else if 65536 ≤ size then fs.map files path
        else fs.read files path := by
  cases h with
  | unknown hsize => rw [hsize]
  | empty hsize =>
    rw [hsize]
    rfl
  | small hsize hpos hsmall =>
    rw [hsize]
    dsimp only
    rw [if_neg (Nat.ne_of_gt hpos), if_neg (Nat.not_le_of_lt hsmall)]
  | large hsize hlarge =>
    have hpos : 0 < _ := Nat.lt_of_lt_of_le (by decide) hlarge
    rw [hsize]
    dsimp only
    rw [if_neg (Nat.ne_of_gt hpos), if_pos hlarge]

theorem ReadsAs.unique {files : σ} {path : Text} {result result' : Except FileFault ByteArray}
    (h : fs.ReadsAs files path result) (h' : fs.ReadsAs files path result') :
    result = result' :=
  h.eq_bySize.trans h'.eq_bySize.symm

/-- Whichever way a file is read, its bytes are read. -/
theorem ReadsAs.content {view : FileView σ} (hlawful : fs.Lawful view) {files : σ} {path : Text}
    {bytes : ByteArray} {file : view.File} (h : fs.ReadsAs files path (.ok bytes))
    (hleads : view.leads files path = some file) : view.content files file = some bytes := by
  generalize hresult : Except.ok bytes = result at h
  cases h with
  | unknown => contradiction
  | empty hsize =>
    obtain ⟨held, hheld, hempty⟩ := hlawful.size_eq hleads hsize
    rw [hheld, Except.ok.inj hresult, ByteArray.size_eq_zero_iff.mp hempty]
  | small => exact hlawful.read_eq hleads hresult.symm
  | large => exact hlawful.map_eq hleads hresult.symm

end FileSystem
end CompletionSnippets
