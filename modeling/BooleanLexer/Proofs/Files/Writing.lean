/-
# BooleanLexer.Proofs.Files.Writing -- what writing a file leaves as it was

Writing to a path puts a file at one place, and that place holds no directory before or
after.  A walk passes directories only, so every walk takes the same way afterwards
(`walk_put`), whatever it comes to at its end.

Hence the path that was written reads as what was written to it (`read_put_of_target`), also
where the way to it passes the same directories more than once.  Whether a path can be written
does not depend on the contents (`write_eq_error_iff`).
-/
import BooleanLexer.Files.Basic

namespace BooleanLexer

set_option autoImplicit false

/-- One computation behind another succeeds exactly if both do. -/
theorem bind_eq_ok_iff {ε α β : Type} {first : Except ε α} {next : α → Except ε β} {b : β} :
    first >>= next = .ok b ↔ ∃ a, first = .ok a ∧ next a = .ok b := by
  cases first with
  | error fault =>
      constructor
      · intro same
        cases same
      · rintro ⟨a, same, -⟩
        cases same
  | ok a =>
      constructor
      · intro same
        exact ⟨a, rfl, same⟩
      · rintro ⟨_, returned, same⟩
        cases returned
        exact same

namespace Files

variable {files : Files} {place : Place}

/-! ## Walking -/

/-- The place that a path leads to, step by step. -/
def walk (files : Files) (path : Path) : Except PathFault Place :=
  path.steps.foldlM files.follow (files.origin path)

theorem node?_of_requireDirectory (searched : files.requireDirectory place = .ok ()) :
    files.node? place = some .directory := by
  unfold requireDirectory at searched
  split at searched
  · assumption
  · cases searched
  · cases searched

theorem node?_of_follow {step : Text} {next : Place} (follows : files.follow place step = .ok next) :
    files.node? place = some .directory := by
  obtain ⟨_, searched, -⟩ := bind_eq_ok_iff.mp follows
  exact node?_of_requireDirectory searched

/-- What is put elsewhere does not stop a step. -/
theorem follow_put {other : Place} (node : Node) (elsewhere : other ≠ place) (step : Text) :
    (files.put place node).follow other step = files.follow other step := by
  have same : (files.put place node).requireDirectory other = files.requireDirectory other := by
    rw [requireDirectory, requireDirectory, node?_put_of_ne files node elsewhere]
  rw [follow, follow, same]

/-- A walk is not stopped by what is put where there is no directory. -/
theorem foldlM_follow_put (node : Node) (no_directory : files.node? place ≠ some .directory)
    {steps : List Text} {start stop : Place} (walks : steps.foldlM files.follow start = .ok stop) :
    steps.foldlM (files.put place node).follow start = .ok stop := by
  induction steps generalizing start with
  | nil => exact walks
  | cons step steps ih =>
      rw [List.foldlM_cons] at walks ⊢
      obtain ⟨next, follows, walks⟩ := bind_eq_ok_iff.mp walks
      have passed := node?_of_follow follows
      have elsewhere : start ≠ place := by
        rintro rfl
        exact no_directory passed
      rw [follow_put node elsewhere]
      exact bind_eq_ok_iff.mpr ⟨next, follows, ih walks⟩

theorem walk_put (node : Node) (no_directory : files.node? place ≠ some .directory) {path : Path}
    {stop : Place} (walks : files.walk path = .ok stop) :
    (files.put place node).walk path = .ok stop :=
  foldlM_follow_put node no_directory walks

/-! ## Reading -/

/-- A path that leads to a file, and does not say that it is a directory, can be read. -/
theorem read_of_walk {text : Text} {path : Path} {contents : List UInt8}
    (parsed : Path.ofText text = .ok path) (walks : files.walk path = .ok place)
    (found : files.node? place = some (.file contents)) (closed : path.endsOpen = false) :
    files.read text = .ok contents := by
  have walks : path.steps.foldlM files.follow (files.origin path) = .ok place := walks
  refine bind_eq_ok_iff.mpr ⟨path, parsed, bind_eq_ok_iff.mpr ⟨place, walks, ?_⟩⟩
  rw [found, closed]
  rfl

/-! ## Writing -/

/-- The place that writing finds is where the path leads to, and no directory is there. -/
theorem exists_of_target {text : Text} (found : files.target text = .ok place) :
    ∃ path, Path.ofText text = .ok path ∧ files.walk path = .ok place ∧ path.endsOpen = false ∧
      files.node? place ≠ some .directory := by
  obtain ⟨path, parsed, found⟩ := bind_eq_ok_iff.mp found
  refine ⟨path, parsed, ?_⟩
  cases last : path.steps.getLast? with
  | none =>
      rw [last] at found
      cases found
  | some name =>
      rw [last] at found
      obtain ⟨parent, walks, found⟩ := bind_eq_ok_iff.mp found
      obtain ⟨_, -, found⟩ := bind_eq_ok_iff.mp found
      by_cases refused : (path.endsOpen || name = Path.stay || name = Path.up) = true
      · rw [if_pos refused] at found
        cases found
      · rw [if_neg refused] at found
        obtain ⟨other, follows, found⟩ := bind_eq_ok_iff.mp found
        by_cases directory : files.node? other = some .directory
        · rw [if_pos directory] at found
          cases found
        · rw [if_neg directory] at found
          cases found
          refine ⟨?_, ?_, directory⟩
          · obtain ⟨front, steps⟩ := List.getLast?_eq_some_iff.mp last
            rw [steps, List.dropLast_concat] at walks
            rw [walk, steps, List.foldlM_append]
            refine bind_eq_ok_iff.mpr ⟨parent, walks, ?_⟩
            rw [List.foldlM_cons]
            exact bind_eq_ok_iff.mpr ⟨place, follows, rfl⟩
          · cases opens : path.endsOpen with
            | false => rfl
            | true => exact absurd (by rw [opens]; rfl) refused

theorem write_of_target {path : Text} (found : files.target path = .ok place)
    (contents : List UInt8) : files.write path contents = .ok (files.put place (.file contents)) := by
  rw [write, found]
  rfl

/-- A path that cannot be written is refused for a reason that does not lie in the contents. -/
theorem write_eq_error_iff {path : Text} {contents : List UInt8} {fault : PathFault} :
    files.write path contents = .error fault ↔ files.target path = .error fault := by
  rw [write]
  cases files.target path with
  | error other =>
      constructor
      · intro same
        cases same
        rfl
      · intro same
        cases same
        rfl
  | ok place =>
      constructor
      · intro same
        cases same
      · intro same
        cases same

theorem read_put_of_target {path : Text} (found : files.target path = .ok place)
    (contents : List UInt8) : (files.put place (.file contents)).read path = .ok contents := by
  obtain ⟨parsed, of_text, walks, closed, no_directory⟩ := exists_of_target found
  exact read_of_walk of_text (walk_put _ no_directory walks) (node?_put_self files place _) closed

end Files

end BooleanLexer
