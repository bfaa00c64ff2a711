/-
# PaymentSystem.Adapters.Loading -- what loading makes of any file

`deserialize` counts the fields of a line and passes over a line with too few.  Of the
fields themselves it checks nothing: a number that does not convert throws, out of the
constructor; and what converts is taken, whatever follows the number or the ninth field,
and whether or not the enums are declared.

`ImageOf` says what a good line is, in terms of the writer alone.  `LoadsExactly` is a load
that holds the last good line of every id and passes over every other line, which is so
exactly of the files in which those have too few fields (`loads_exactly_iff`).
-/
import PaymentSystem.Adapters.Reopening

namespace PaymentSystem.Adapters.FileTransactionRepository

open PaymentSystem.Common
open PaymentSystem.Domain
open PaymentSystem.Theory
open PaymentSystem.Theory.Keyed
open PaymentSystem.Theory.Lines

set_option autoImplicit false

/-! ## Good lines -/

/-- The line is how `txn` is written, and its strings are plain. -/
def ImageOf (line : List Char) (txn : Transaction) : Prop :=
  PlainTransaction txn ∧ serialize (recordOf txn) = line

/-- The last line that is the image of a transaction under `id`. -/
def LastImage (lines : List (List Char)) (id : String) (txn : Transaction) : Prop :=
  ∃ before line after, lines = before ++ line :: after ∧ ImageOf line txn ∧ txn.id = id ∧
    ∀ later ∈ after, ∀ u, ImageOf later u → u.id ≠ id

/-- Loading goes on as if the line were not there. -/
def Skipped (line : List Char) : Prop :=
  ∀ index lines, loadLines index (line :: lines) = loadLines index lines

/-- The constructor does not throw; the index holds, for each id, the transaction of its
last image and nothing else; and every other line is skipped. -/
def LoadsExactly (bytes : List Char) : Prop :=
  ∃ repo, opened (some bytes) = .ok repo ∧
    (∀ id r, repo.find id = some r ↔
      ∃ txn, recordOf txn = r ∧ LastImage (pieces '\n' bytes) id txn) ∧
    ∀ line ∈ pieces '\n' bytes, (∀ txn, ¬ ImageOf line txn) → Skipped line

/-- A line with fields enough that is no image. -/
def Corrupt (line : List Char) : Prop :=
  9 ≤ (pieces DELIM line).length ∧ ∀ txn, ¬ ImageOf line txn

theorem ImageOf.entry {line : List Char} {txn : Transaction} (image : ImageOf line txn) :
    entry line = some (recordOf txn) := by
  obtain ⟨plain, rfl⟩ := image
  rw [FileTransactionRepository.entry, deserialize_serialize plain]

theorem ImageOf.readable {line : List Char} {txn : Transaction} (image : ImageOf line txn) :
    Readable line := by
  obtain ⟨plain, rfl⟩ := image
  exact ⟨_, deserialize_serialize plain⟩

theorem lastImage_snoc {lines : List (List Char)} {line : List Char} {id : String}
    {txn : Transaction} : LastImage (lines ++ [line]) id txn ↔
      ImageOf line txn ∧ txn.id = id ∨
        (∀ u, ImageOf line u → u.id ≠ id) ∧ LastImage lines id txn := by
  constructor
  · rintro ⟨before, last, after, split, image, own, none_⟩
    rcases List.eq_nil_or_concat' after with rfl | ⟨after, end_, rfl⟩
    · obtain ⟨-, same⟩ := List.append_inj' split rfl
      cases same
      exact .inl ⟨image, own⟩
    · rw [← List.cons_append, ← List.append_assoc] at split
      obtain ⟨rfl, same⟩ := List.append_inj' split rfl
      cases same
      refine .inr ⟨none_ line (by simp), before, last, after, rfl, image, own, fun l member => ?_⟩
      exact none_ l (List.mem_append_left _ member)
  · rintro (⟨image, own⟩ | ⟨other, before, last, after, rfl, image, own, none_⟩)
    · exact ⟨lines, line, [], rfl, image, own, nofun⟩
    · refine ⟨before, last, after ++ [line], by simp, image, own, fun l member => ?_⟩
      rcases List.mem_append.1 member with inside | last
      · exact none_ l inside
      · rw [List.mem_singleton.1 last]
        exact other

/-! ## Lines that are skipped -/

/-- **A line is skipped exactly if it has too few fields.** -/
theorem skipped_iff {line : List Char} : Skipped line ↔ (pieces DELIM line).length < 9 := by
  constructor
  · intro skipped
    by_contra enough
    have alone : loadLines ∅ [line] = .ok ∅ := skipped ∅ []
    have readable := readable_of_loadLines alone line (List.mem_singleton.2 rfl)
    obtain ⟨r, read⟩ := entry_of_pieces readable (Nat.not_lt.1 enough)
    have found : entry line = some r := by rw [entry, read]
    rw [loadLines_readable (List.forall_mem_singleton.2 readable), List.filterMap_cons_some found,
      List.filterMap_nil] at alone
    have there := lookup_gather_empty Record.id [r] r.id
    rw [Except.ok.inj alone] at there
    simp [latest] at there
  · intro short index lines
    rw [loadLines, deserialize_short short]
    split <;> rfl

theorem entry_of_short {line : List Char} (short : (pieces DELIM line).length < 9) :
    entry line = none := by
  rw [entry, deserialize_short short]

/-- Where no line is corrupt, the lines that read as something are the images. -/
theorem entry_iff_image {line : List Char} (sound : ¬ Corrupt line) {r : Record} :
    entry line = some r ↔ ∃ txn, recordOf txn = r ∧ ImageOf line txn := by
  constructor
  · intro found
    by_cases short : (pieces DELIM line).length < 9
    · rw [entry_of_short short] at found
      cases found
    · unfold Corrupt at sound
      push Not at sound
      obtain ⟨txn, image⟩ := sound (Nat.not_lt.1 short)
      exact ⟨txn, Option.some.inj (image.entry.symm.trans found), image⟩
  · rintro ⟨txn, rfl, image⟩
    exact image.entry

theorem latest_entries {lines : List (List Char)} (sound : ∀ line ∈ lines, ¬ Corrupt line)
    (id : String) (r : Record) : latest Record.id (lines.filterMap entry) id = some r ↔
      ∃ txn, recordOf txn = r ∧ LastImage lines id txn := by
  induction lines using List.reverseRecOn with
  | nil =>
    refine ⟨nofun, ?_⟩
    rintro ⟨txn, -, before, line, after, split, -⟩
    simp at split
  | append_singleton lines line ih =>
    have before := ih fun l member => sound l (List.mem_append_left _ member)
    have last := sound line (by simp)
    rw [List.filterMap_append]
    cases found : entry line with
    | none =>
      have other (txn : Transaction) : ¬ ImageOf line txn := by
        intro image
        cases found.symm.trans image.entry
      rw [List.filterMap_cons_none found, List.filterMap_nil, List.append_nil, before]
      simp only [lastImage_snoc, other, false_and, false_or, false_implies, implies_true, true_and]
    | some r' =>
      obtain ⟨txn', rfl, image⟩ := (entry_iff_image last).1 found
      have only {u : Transaction} (also : ImageOf line u) : u = txn' :=
        recordOf_inj (Option.some.inj (also.entry.symm.trans found))
      rw [List.filterMap_cons_some found, List.filterMap_nil, latest_snoc, recordOf_id]
      split
      · rename_i own
        constructor
        · intro is
          exact ⟨txn', Option.some.inj is, lastImage_snoc.2 (.inl ⟨image, own⟩)⟩
        · rintro ⟨txn, rfl, there⟩
          rcases lastImage_snoc.1 there with ⟨also, -⟩ | ⟨none_, -⟩
          · rw [only also]
          · exact absurd own (none_ txn' image)
      · rename_i other
        rw [before]
        refine exists_congr fun txn => and_congr_right fun _ => ?_
        rw [lastImage_snoc]
        constructor
        · intro earlier
          refine .inr ⟨fun u also => ?_, earlier⟩
          rw [only also]
          exact other
        · rintro (⟨also, own⟩ | ⟨-, earlier⟩)
          · rw [only also] at own
            exact absurd own other
          · exact earlier

/-- **The constructor holds exactly the good lines of a file, whatever the file, if and
only if every other line has too few fields.** -/
theorem loads_exactly_iff (bytes : List Char) :
    LoadsExactly bytes ↔ ∀ line ∈ pieces '\n' bytes, ¬ Corrupt line := by
  constructor
  · rintro ⟨repo, -, -, skips⟩ line member ⟨enough, other⟩
    exact absurd (skipped_iff.1 (skips line member other)) (Nat.not_lt.2 enough)
  · intro sound
    have short {line : List Char} (member : line ∈ pieces '\n' bytes) (other : ∀ txn, ¬ ImageOf line txn) :
        (pieces DELIM line).length < 9 :=
      Nat.lt_of_not_le fun enough => sound line member ⟨enough, other⟩
    have readable : ∀ line ∈ pieces '\n' bytes, Readable line := by
      intro line member
      by_cases some_ : ∃ txn, ImageOf line txn
      · obtain ⟨txn, image⟩ := some_
        exact image.readable
      · exact ⟨none, deserialize_short (short member (not_exists.1 some_))⟩
    refine ⟨⟨gather Record.id ∅ ((pieces '\n' bytes).filterMap entry), some bytes⟩, ?_,
      fun id r => ?_, fun line member other => ?_⟩
    · rw [opened, loadFromDisk, loadLines_readable readable]
      rfl
    · rw [FileTransactionRepository.find, lookup_gather_empty]
      exact latest_entries sound id r
    · exact skipped_iff.2 (short member other)

/-- A line with the given amount, currency and creation time, as they are spelt. -/
def lineWith (minor ccy created : String) : List Char :=
  "txn_1\tkey-1\tu\tm\t".toList ++ minor.toList ++ '\t' :: ccy.toList ++ "\t1\t2\t".toList ++
    created.toList ++ ['\n']

/-- A number that is none throws out of the constructor; and one with more behind it, and
an enum that is not declared, are loaded. -/
theorem corrupt_lines_loaded : ¬ LoadsExactly (lineWith "abc" "0" "5") ∧
    ∃ repo, opened (some (lineWith "30000" "7" "5 minutes")) = .ok repo ∧
      repo.find "txn_1" = some ⟨"txn_1", "key-1", "u", "m", 30000, 7, 1, 2, 5⟩ := by
  constructor
  · rintro ⟨repo, loaded, -⟩
    have throws : (opened (some (lineWith "abc" "0" "5"))).toBool = false := by decide +kernel
    rw [loaded] at throws
    cases throws
  · have loads : (opened (some (lineWith "30000" "7" "5 minutes"))).toOption.any (fun repo =>
        repo.find "txn_1" = some ⟨"txn_1", "key-1", "u", "m", 30000, 7, 1, 2, 5⟩) = true := by
      decide +kernel
    cases loaded : opened (some (lineWith "30000" "7" "5 minutes")) with
    | error e =>
      rw [loaded] at loads
      cases loads
    | ok repo =>
      rw [loaded] at loads
      exact ⟨repo, rfl, of_decide_eq_true loads⟩

end PaymentSystem.Adapters.FileTransactionRepository
