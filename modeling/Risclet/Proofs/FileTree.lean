import Risclet.FileTree
import Risclet.Proofs.Outcome

/-! # Reading what was written

To write to a path is to set the content of the file that it leads to, and of no other: first to
nothing, when the file is opened (`create_eq_ok`), then to what is stored (`set_set`).  Read again
by the same path, the tree gives what was stored last (`read_set`).

For this the path has to lead to the same place before and after.  A file that comes into being may
stand in the way of a path only where a directory was; but where the path to write to leads, there
was a file or nothing at all (`Open`).
-/
namespace Risclet
namespace FileTree

theorem lookup_setContent (files : List (List String × ByteArray)) (names key : List String)
    (bytes : ByteArray) :
    (setContent names bytes files).lookup key =
      if key = names then some bytes else files.lookup key := by
  induction files with
  | nil =>
    by_cases h : key = names <;> simp [setContent, h]
  | cons file rest ih =>
    obtain ⟨name, old⟩ := file
    rw [setContent]
    by_cases h : key = name
    · subst h
      by_cases hname : key = names <;> simp [hname]
    · have hkey : (key == name) = false := by simpa using h
      by_cases hname : name = names
      · subst hname
        simp [List.lookup_cons, hkey, h]
      · simp [List.lookup_cons, hkey, hname, ih]

@[simp] theorem content?_set (t : FileTree) (names key : List String) (bytes : ByteArray) :
    (t.set names bytes).content? key = if key = names then some bytes else t.content? key :=
  lookup_setContent t.files names key bytes

@[simp] theorem isDir_set (t : FileTree) (names key : List String) (bytes : ByteArray) :
    (t.set names bytes).isDir key = t.isDir key := rfl

theorem setContent_setContent (files : List (List String × ByteArray)) (names : List String)
    (old bytes : ByteArray) :
    setContent names bytes (setContent names old files) = setContent names bytes files := by
  induction files with
  | nil => simp [setContent]
  | cons file rest ih =>
    obtain ⟨name, _⟩ := file
    by_cases h : name = names
    · simp [setContent, h]
    · simp [setContent, h, ih]

/-- Of two contents that are set, the last is left. -/
@[simp] theorem set_set (t : FileTree) (names : List String) (old bytes : ByteArray) :
    (t.set names old).set names bytes = t.set names bytes := by
  simp [set, setContent_setContent]

/-- Opening for writing empties the file that the path leads to. -/
theorem create_eq_ok {t after : FileTree} {path : String} {names : List String} :
    t.create path = .ok (names, after) ↔
      t.target path = .ok names ∧ after = t.set names ByteArray.empty := by
  unfold create
  cases t.target path with
  | ok file =>
    simp only [Except.ok.injEq, Prod.mk.injEq]
    constructor
    · rintro ⟨rfl, rfl⟩
      exact ⟨rfl, rfl⟩
    · rintro ⟨rfl, rfl⟩
      exact ⟨rfl, rfl⟩
  | error fault => simp

/-! ## Ways to a file -/

/-- A place where there is a file, or neither a file nor a directory. -/
def Open (t : FileTree) (names : List String) : Prop :=
  t.isDir names = true → (t.content? names).isSome = true

/-- A part of a path that names something in a directory. -/
def IsName (name : String) : Prop :=
  name ≠ "." ∧ name ≠ ".." ∧ name.utf8ByteSize ≤ maxName

section Ways
variable {t : FileTree} {names dir : List String} {place there : Place} {name : String}

theorem step_of_isName (h : IsName name) : t.step (.dir dir) name =
    if (t.content? (dir ++ [name])).isSome then .ok (.file (dir ++ [name]))
    else if t.isDir (dir ++ [name]) then .ok (.dir (dir ++ [name]))
    else .error .missing := by
  obtain ⟨hdot, hdots, hshort⟩ := h
  have hlong : ¬ maxName < name.utf8ByteSize := by omega
  simp [step, hdot, hdots, hlong]

/-- Any other part leads to the same directory in every tree, or nowhere because it is too long. -/
theorem step_of_not_isName (h : ¬ IsName name) (dir : List String) :
    (∃ there, ∀ t : FileTree, t.step (.dir dir) name = .ok (.dir there)) ∨
      ∀ t : FileTree, t.step (.dir dir) name = .error .nameTooLong := by
  by_cases hdot : name = "."
  · exact .inl ⟨dir, fun t => by simp [step, hdot]⟩
  · by_cases hdots : name = ".."
    · exact .inl ⟨parent dir, fun t => by simp [step, hdots]⟩
    · have hlong : maxName < name.utf8ByteSize :=
        Nat.lt_of_not_le fun hshort => h ⟨hdot, hdots, hshort⟩
      exact .inr fun t => by simp [step, hdot, hdots, hlong]

/-- A step that could be taken leads to the same place when a file is set. -/
theorem step_set (hopen : t.Open names) (bytes : ByteArray) (h : t.step place name = .ok there) :
    (t.set names bytes).step place name = .ok there := by
  cases place with
  | file _ => cases h
  | dir dir =>
    by_cases hname : IsName name
    · rw [step_of_isName hname] at h ⊢
      rw [content?_set, isDir_set]
      split at h
      · next hfile =>
        rw [← h, if_pos]
        split <;> simp [hfile]
      · next hfile =>
        split at h
        · next hdir =>
          -- Where there was a directory, no file is set.
          have hother : dir ++ [name] ≠ names := by
            rintro rfl
            exact hfile (hopen hdir)
          rw [if_neg hother, if_neg hfile, if_pos hdir, h]
        · cases h
    · rcases step_of_not_isName hname dir with ⟨other, hstep⟩ | hstep
      · rw [hstep, ← h, hstep]
      · rw [hstep] at h
        cases h

theorem follow_set (hopen : t.Open names) (bytes : ByteArray) {way : List String}
    (h : t.follow place way = .ok there) : (t.set names bytes).follow place way = .ok there := by
  induction way generalizing place with
  | nil => exact h
  | cons name way ih =>
    obtain ⟨next, hstep, hway⟩ := Outcome.bind_eq_ok.mp h
    rw [follow, step_set hopen bytes hstep]
    exact ih hway

theorem follow_concat (t : FileTree) (place : Place) (way : List String) (name : String) :
    t.follow place (way ++ [name]) = t.follow place way >>= fun there => t.step there name := by
  induction way generalizing place with
  | nil =>
    simp only [List.nil_append, follow, Outcome.bind_ok]
    cases t.step place name <;> rfl
  | cons first way ih =>
    simp only [List.cons_append, follow]
    cases t.step place first with
    | error _ => rfl
    | ok there => exact ih there

end Ways

/-! ## Paths to write to -/

/-- Where a path to write to leads: into a directory, to a file in it or to none. -/
structure Leads (t : FileTree) (path : String) (dir : List String) (name : String) : Prop where
  checked : checkPath path = .ok ()
  way : ∃ front, parts path = front ++ [name] ∧ t.follow (origin path) front = .ok (.dir dir)
  noSlash : wantsDirectory path = false
  isName : IsName name
  isOpen : t.Open (dir ++ [name])

/-- A last step to a file, or to something that is missing, leads to an open place. -/
theorem open_of_step {t : FileTree} {dir names : List String} {name : String}
    (h : t.step (.dir dir) name = .ok (.file names) ∨
      t.step (.dir dir) name = .error .missing ∧ names = dir ++ [name]) :
    IsName name ∧ t.Open (dir ++ [name]) ∧ names = dir ++ [name] := by
  by_cases hname : IsName name
  · rw [step_of_isName hname] at h
    by_cases hfile : (t.content? (dir ++ [name])).isSome = true
    · simp only [hfile, if_true, Except.ok.injEq, Place.file.injEq, reduceCtorEq, false_and,
        or_false] at h
      exact ⟨hname, fun _ => hfile, h.symm⟩
    · by_cases hdir : t.isDir (dir ++ [name]) = true
      · simp [hfile, hdir] at h
      · simp only [hfile, hdir] at h
        exact ⟨hname, fun hd => absurd hd hdir, by simpa using h⟩
  · rcases step_of_not_isName hname dir with ⟨other, hstep⟩ | hstep <;> simp [hstep] at h

theorem leads_of_target {t : FileTree} {path : String} {names : List String}
    (h : t.target path = .ok names) :
    ∃ dir name, t.Leads path dir name ∧ names = dir ++ [name] := by
  obtain ⟨⟨⟩, hcheck, h⟩ := Outcome.bind_eq_ok.mp h
  obtain ⟨place, hfront, h⟩ := Outcome.bind_eq_ok.mp h
  split at h
  · cases h
  · cases h
  · next dir name hlast =>
    obtain ⟨front, hparts⟩ := List.getLast?_eq_some_iff.mp hlast
    rw [hparts, List.dropLast_concat] at hfront
    split at h
    · cases h
    · next hslash =>
      have hstep : t.step (.dir dir) name = .ok (.file names) ∨
          t.step (.dir dir) name = .error .missing ∧ names = dir ++ [name] := by
        split at h
        · next hfile =>
          cases h
          exact .inl hfile
        · cases h
        · next hmissing =>
          cases h
          exact .inr ⟨hmissing, rfl⟩
        · cases h
      obtain ⟨hname, hopen, hnames⟩ := open_of_step hstep
      exact ⟨dir, name, ⟨hcheck, ⟨front, hparts, hfront⟩, by simpa using hslash, hname, hopen⟩,
        hnames⟩

/-- **What is set where a path leads is read from the path.** -/
theorem read_set {t : FileTree} {path : String} {names : List String}
    (h : t.target path = .ok names) (bytes : ByteArray) :
    (t.set names bytes).read path = .ok bytes := by
  obtain ⟨dir, name, ⟨hcheck, ⟨front, hparts, hfront⟩, hslash, hname, hopen⟩, rfl⟩ :=
    leads_of_target h
  have hstep : (t.set (dir ++ [name]) bytes).step (.dir dir) name =
      .ok (.file (dir ++ [name])) := by
    rw [step_of_isName hname]
    simp
  have hfollow : (t.set (dir ++ [name]) bytes).follow (origin path) (parts path) =
      .ok (.file (dir ++ [name])) := by
    rw [hparts, follow_concat, follow_set hopen bytes hfront]
    exact hstep
  rw [read, lookUp, hcheck, Outcome.bind_ok, hfollow, Outcome.bind_ok]
  simp [hslash]

end FileTree
end Risclet
