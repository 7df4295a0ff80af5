/-
# The loop that reads a file

The loop of `handle_request` that copies a file into the reply tests `gcount()` only, and
never the state of the stream:

    while (is.read(buf, sizeof (buf)).gcount() > 0)
        rep.content_.append(buf, is.gcount());

It ends for every file, after one pass for each block of 512 bytes that the file fills or
starts, and what it appends is the file (`readLoop_terminates`).  The invariant `Copying` relates
the position of the stream, its `failbit` and the content.
-/
import Unichannel.Lib.WhileLoop
import Unichannel.HttpReqHandler

namespace Unichannel

open WhileLoop

/-- The variables of the loop. -/
structure ReadState where
  is : IfStream
  buf : Bytes
  /-- `is.gcount()`. -/
  gcount : ℕ
  content_ : Bytes
  deriving DecidableEq, Repr

/-- `is.read(buf, sizeof (buf)).gcount() > 0`. -/
def readTest (s : ReadState) : Bool × ReadState :=
  let r := s.is.read s.buf 512
  (0 < r.2.2, { s with is := r.1, buf := r.2.1, gcount := r.2.2 })

/-- `rep.content_.append(buf, is.gcount())`. -/
def appendBlock (s : ReadState) : ReadState :=
  { s with content_ := s.content_ ++ s.buf.take s.gcount }

/-- What is appended is what the stream has delivered, and nothing behind it in the
buffer. -/
theorem IfStream.read_take (is : IfStream) (buf : Bytes) :
    (is.read buf 512).2.1.take (is.read buf 512).2.2
      = if is.failed then [] else is.rest.take 512 := by
  unfold IfStream.read
  split_ifs with hfail
  · exact List.take_zero
  · exact List.take_left

/-- A read delivers the bytes there are, and none after a failure. -/
theorem IfStream.read_gcount (is : IfStream) (buf : Bytes) :
    (is.read buf 512).2.2 = if is.failed then 0 else min 512 is.rest.length := by
  unfold IfStream.read
  split_ifs with hfail
  · rfl
  · exact List.length_take

/-- These bytes are gone from the stream. -/
theorem IfStream.read_rest (is : IfStream) (buf : Bytes) :
    (is.read buf 512).1.rest = if is.failed then is.rest else is.rest.drop 512 := by
  unfold IfStream.read
  split_ifs with hfail <;> rfl

/-- It fails when it comes to the end. -/
theorem IfStream.read_failed (is : IfStream) (buf : Bytes) :
    (is.read buf 512).1.failed = (is.failed || decide (is.rest.length < 512)) := by
  unfold IfStream.read
  split_ifs with hfail
  · rw [hfail, Bool.true_or]
  · simp only [List.length_take, Bool.not_eq_true] at hfail ⊢
    rw [hfail, Bool.false_or, decide_eq_decide]
    omega

/-- The invariant of the loop that copies the file `c` behind the content `p`: the bytes
appended so far and those still in the stream are the file, and a stream that has failed
is used up. -/
structure Copying (p c : Bytes) (s : ReadState) : Prop where
  content_eq : s.content_ ++ s.is.rest = p ++ c
  rest_of_failed : s.is.failed = true → s.is.rest = []

/-- The blocks still to come: a failed stream delivers none. -/
def blocksLeft (s : ReadState) : ℕ :=
  if s.is.failed then 0 else (s.is.rest.length + 511) / 512

/-- The loop goes on as long as an intact stream has bytes left. -/
theorem readTest_fst_iff (s : ReadState) :
    (readTest s).1 = true ↔ s.is.failed = false ∧ 0 < s.is.rest.length := by
  show decide (0 < (s.is.read s.buf 512).2.2) = true ↔ _
  rw [decide_eq_true_iff, IfStream.read_gcount]
  split_ifs with hfail
  · exact iff_of_false (lt_irrefl 0) (fun h => Bool.false_ne_true (h.1.symm.trans hfail))
  · rw [Bool.not_eq_true] at hfail
    rw [and_iff_right hfail]
    omega

/-- A pass copies the next block, full or not, and leaves one block less. -/
theorem Copying.pass {p c : Bytes} {s : ReadState} (h : Copying p c s)
    (htest : (readTest s).1 = true) :
    Copying p c (appendBlock (readTest s).2)
      ∧ blocksLeft s = blocksLeft (appendBlock (readTest s).2) + 1 := by
  obtain ⟨hgood, hrest⟩ := (readTest_fst_iff s).mp htest
  have happend : (appendBlock (readTest s).2).content_ = s.content_ ++ s.is.rest.take 512 := by
    show s.content_ ++ (s.is.read s.buf 512).2.1.take (s.is.read s.buf 512).2.2 = _
    rw [IfStream.read_take, if_neg (Bool.not_eq_true _ ▸ hgood)]
  have hleft : (appendBlock (readTest s).2).is.rest = s.is.rest.drop 512 := by
    show (s.is.read s.buf 512).1.rest = _
    rw [IfStream.read_rest, if_neg (Bool.not_eq_true _ ▸ hgood)]
  have hfailed : (appendBlock (readTest s).2).is.failed = decide (s.is.rest.length < 512) := by
    show (s.is.read s.buf 512).1.failed = _
    rw [IfStream.read_failed, hgood, Bool.false_or]
  refine ⟨⟨?_, ?_⟩, ?_⟩
  · rw [happend, hleft, List.append_assoc, List.take_append_drop]
    exact h.content_eq
  · intro hshort
    rw [hfailed, decide_eq_true_iff] at hshort
    rw [hleft]
    exact List.drop_eq_nil_of_le hshort.le
  · -- a short block sets `failbit`, a full one leaves the stream good
    unfold blocksLeft
    rw [hgood, hfailed, hleft, List.length_drop]
    simp only [Bool.false_eq_true, if_false, decide_eq_true_eq]
    split_ifs with hshort <;> omega

/-- Where the test fails, everything has been copied. -/
theorem Copying.done {p c : Bytes} {s : ReadState} (h : Copying p c s)
    (htest : (readTest s).1 = false) :
    blocksLeft s = 0 ∧ (readTest s).2.content_ = p ++ c := by
  have hnot : ¬ (s.is.failed = false ∧ 0 < s.is.rest.length) := by
    rw [← readTest_fst_iff, htest]
    exact Bool.false_ne_true
  have hrest : s.is.rest = [] := by
    by_cases hfail : s.is.failed = true
    · exact h.rest_of_failed hfail
    · rw [Bool.not_eq_true] at hfail
      rw [hfail, eq_self, true_and] at hnot
      apply List.eq_nil_of_length_eq_zero
      omega
  constructor
  · rw [blocksLeft, hrest]
    split_ifs <;> rfl
  · show s.content_ = p ++ c
    rw [← h.content_eq, hrest, List.append_nil]

/-- What `readLoop` computes is what the loop leaves. -/
theorem readLoop_eq_of_ends {k : ℕ} {s s' : ReadState} (h : Ends readTest appendBlock k s s') :
    readLoop s.is s.buf s.content_ = s'.content_ := by
  induction h with
  | done hfalse =>
    rw [readLoop, if_neg (of_decide_eq_false hfalse)]
    rfl
  | pass htrue _ ih =>
    rw [readLoop, if_pos (of_decide_eq_true htrue)]
    exact ih

/-- The loop ends for every file, with the file behind what the reply had. -/
theorem exists_ends (c p buf : Bytes) (gcount : ℕ) :
    ∃ s', Ends readTest appendBlock ((c.length + 511) / 512) ⟨⟨c, false⟩, buf, gcount, p⟩ s'
      ∧ s'.content_ = p ++ c := by
  have hstart : Copying p c ⟨⟨c, false⟩, buf, gcount, p⟩ := by
    refine ⟨rfl, ?_⟩
    intro hfail
    exact absurd hfail Bool.false_ne_true
  exact Ends.of_variant (I := Copying p c) (μ := blocksLeft) (fun s hI htest => hI.pass htest)
    (fun s hI htest => hI.done htest) hstart

/-- The content `handle_request` arrives at. -/
theorem readLoop_eq (c p buf : Bytes) : readLoop ⟨c, false⟩ buf p = p ++ c := by
  obtain ⟨s', hends, hcontent⟩ := exists_ends c p buf 0
  exact (readLoop_eq_of_ends hends).trans hcontent

/-- **The loop ends and copies the file.**  Whatever the file `c`, the content `p` the reply
had and the bytes left in the buffer, the loop makes one pass for each block of 512 bytes,
the last one possibly short, and leaves `p` followed by `c`. -/
theorem readLoop_terminates (c p buf : Bytes) (gcount : ℕ) :
    ∃ s', Ends readTest appendBlock ((c.length + 511) / 512) ⟨⟨c, false⟩, buf, gcount, p⟩ s'
      ∧ s'.content_ = p ++ c
      ∧ readLoop ⟨c, false⟩ buf p = s'.content_ := by
  obtain ⟨s', hends, hcontent⟩ := exists_ends c p buf gcount
  exact ⟨s', hends, hcontent, readLoop_eq_of_ends hends⟩

end Unichannel
