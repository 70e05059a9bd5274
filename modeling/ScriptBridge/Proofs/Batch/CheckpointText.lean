import ScriptBridge.Proofs.Batch.KeptTree

/-!
# Texts of checkpoints

The three parts of a checkpoint are written with bars between them and nothing is escaped.
What is read is what was written if the first two parts hold no bar and the last one does
not end with a line end, and for no other checkpoint.
-/

namespace ScriptBridge

namespace Checkpoint

/-- The characters that are taken from the end of a text. -/
def IsLineEnd (character : Char) : Prop :=
  character = '\r' ∨ character = '\n'

instance (character : Char) : Decidable (IsLineEnd character) :=
  inferInstanceAs (Decidable (_ ∨ _))

/-- A text that does not end with a line end. -/
def EndsPlain (text : List Char) : Prop :=
  ∀ last ∈ text.getLast?, ¬ IsLineEnd last

/-- One text is another without the line ends behind it. -/
def TrimsTo (text trimmed : List Char) : Prop :=
  EndsPlain trimmed ∧ ∃ ends, text = trimmed ++ ends ∧ ∀ character ∈ ends, IsLineEnd character

theorem withoutLineEnds_concat (text : List Char) (last : Char) :
    withoutLineEnds (text ++ [last]) =
      if IsLineEnd last then withoutLineEnds text else text ++ [last] := by
  unfold withoutLineEnds
  rw [List.reverse_append, List.reverse_singleton, List.singleton_append, List.dropWhile_cons]
  by_cases isEnd : IsLineEnd last
  · rw [if_pos isEnd, if_pos (by simpa [IsLineEnd] using isEnd)]
  · rw [if_neg isEnd, if_neg (by simpa [IsLineEnd] using isEnd), List.reverse_cons,
      List.reverse_reverse]

theorem trimsTo_withoutLineEnds (text : List Char) : TrimsTo text (withoutLineEnds text) := by
  induction text using List.reverseRecOn with
  | nil => exact ⟨by simp [EndsPlain, withoutLineEnds], [], rfl, List.forall_mem_nil _⟩
  | append_singleton text last ih =>
      rw [withoutLineEnds_concat]
      split
      · next isEnd =>
        obtain ⟨plain, ends, textEq, areEnds⟩ := ih
        refine ⟨plain, ends ++ [last], ?_, ?_⟩
        · rw [← List.append_assoc, ← textEq]
        · rw [List.forall_mem_append]
          exact ⟨areEnds, by simpa using isEnd⟩
      · next notEnd =>
        exact ⟨by simpa [EndsPlain] using notEnd, [], (List.append_nil _).symm,
          List.forall_mem_nil _⟩

theorem EndsPlain.withoutLineEnds {text : List Char} (plain : EndsPlain text) :
    Checkpoint.withoutLineEnds text = text := by
  rcases List.eq_nil_or_concat' text with rfl | ⟨front, last, rfl⟩
  · rfl
  · rw [withoutLineEnds_concat, if_neg (plain last (by simp))]

theorem endsPlain_iff {text : List Char} : EndsPlain text ↔ withoutLineEnds text = text := by
  refine ⟨EndsPlain.withoutLineEnds, fun same => ?_⟩
  rw [← same]
  exact (trimsTo_withoutLineEnds text).1

/-- There is one text without the line ends behind another. -/
theorem trimsTo_iff {text trimmed : List Char} :
    TrimsTo text trimmed ↔ withoutLineEnds text = trimmed := by
  constructor
  · rintro ⟨plain, ends, rfl, areEnds⟩
    induction ends using List.reverseRecOn with
    | nil => rw [List.append_nil, plain.withoutLineEnds]
    | append_singleton ends last ih =>
        rw [List.forall_mem_append] at areEnds
        rw [← List.append_assoc, withoutLineEnds_concat, if_pos (areEnds.2 last (by simp))]
        exact ih areEnds.1
  · rintro rfl
    exact trimsTo_withoutLineEnds text

theorem splitAtBar_eq_some {text front rest : List Char} :
    splitAtBar text = some (front, rest) ↔ text = front ++ '|' :: rest ∧ '|' ∉ front := by
  constructor
  · intro split
    refine ⟨?_, notMem_of_splitAtBar split⟩
    unfold splitAtBar at split
    split at split
    · next bar behind found =>
      obtain ⟨rfl, rfl⟩ := Prod.mk.inj (Option.some.inj split)
      have atBar := List.head?_dropWhile_not (fun character => decide (character ≠ '|')) text
      rw [found] at atBar
      obtain rfl : bar = '|' := by simpa using atBar
      rw [← found, List.takeWhile_append_dropWhile]
    · cases split
  · rintro ⟨rfl, whole⟩
    exact splitAtBar_append whole rest

theorem toList_render (checkpoint : Checkpoint) :
    checkpoint.render.toList =
      checkpoint.input.toList ++
        '|' :: (checkpoint.output.toList ++ '|' :: checkpoint.file.toList) := by
  simp [render]

/-- What is read is what the text without the line ends behind it is written for, with no
bar in the first two parts. -/
theorem read?_eq_some {text : String} {checkpoint : Checkpoint} :
    read? text = some checkpoint ↔
      withoutLineEnds text.toList = checkpoint.render.toList ∧
        '|' ∉ checkpoint.input.toList ∧ '|' ∉ checkpoint.output.toList := by
  rw [toList_render]
  constructor
  · intro found
    obtain ⟨⟨input, afterInput⟩, atFirst, rest⟩ := Option.bind_eq_some_iff.mp found
    obtain ⟨⟨output, file⟩, atSecond, built⟩ := Option.bind_eq_some_iff.mp rest
    obtain rfl := Option.some.inj built
    obtain ⟨textEq, wholeInput⟩ := splitAtBar_eq_some.mp atFirst
    obtain ⟨rfl, wholeOutput⟩ := splitAtBar_eq_some.mp atSecond
    simp only [String.toList_ofList]
    exact ⟨textEq, wholeInput, wholeOutput⟩
  · rintro ⟨textEq, wholeInput, wholeOutput⟩
    simp only [read?, textEq, splitAtBar_append wholeInput, splitAtBar_append wholeOutput,
      Option.bind_eq_bind, Option.bind_some, String.ofList_toList]
    rfl

/-- The checkpoints that are read as they were written. -/
structure IsReadable (checkpoint : Checkpoint) : Prop where
  input : '|' ∉ checkpoint.input.toList
  output : '|' ∉ checkpoint.output.toList
  file : EndsPlain checkpoint.file.toList

theorem read?_render_iff {checkpoint : Checkpoint} :
    read? checkpoint.render = some checkpoint ↔ checkpoint.IsReadable := by
  rw [read?_eq_some]
  have trimmed : withoutLineEnds checkpoint.render.toList = checkpoint.render.toList ↔
      EndsPlain checkpoint.file.toList := by
    rw [endsPlain_iff, toList_render, ← List.cons_append, ← List.append_assoc,
      withoutLineEnds_append, List.append_cancel_left_eq, List.cons.injEq, eq_self, true_and]
  rw [trimmed]
  exact ⟨fun ⟨file, input, output⟩ => ⟨input, output, file⟩,
    fun ⟨input, output, file⟩ => ⟨file, input, output⟩⟩

theorem exists_bar_split {text : List Char} {count : Nat} (enough : count + 1 ≤ text.count '|') :
    ∃ front rest, text = front ++ '|' :: rest ∧ '|' ∉ front ∧ count ≤ rest.count '|' := by
  have isThere : '|' ∈ text := List.count_pos_iff.mp (by omega)
  obtain ⟨front, rest, rfl, whole⟩ := List.eq_append_cons_of_mem isThere
  refine ⟨front, rest, rfl, whole, ?_⟩
  rw [List.count_append, List.count_eq_zero_of_not_mem whole, List.count_cons_self] at enough
  omega

theorem isSome_read?_iff {text : String} :
    (read? text).isSome ↔ 2 ≤ (withoutLineEnds text.toList).count '|' := by
  constructor
  · intro found
    obtain ⟨checkpoint, isRead⟩ := Option.isSome_iff_exists.mp found
    rw [(read?_eq_some.mp isRead).1, toList_render, List.count_append, List.count_cons_self,
      List.count_append, List.count_cons_self]
    omega
  · intro enough
    obtain ⟨input, afterInput, textEq, wholeInput, more⟩ := exists_bar_split enough
    obtain ⟨output, file, rfl, wholeOutput, -⟩ := exists_bar_split more
    have isRead : read? text =
        some ⟨String.ofList input, String.ofList output, String.ofList file⟩ := by
      rw [read?_eq_some, toList_render]
      simp only [String.toList_ofList]
      exact ⟨textEq, wholeInput, wholeOutput⟩
    rw [isRead]
    rfl

/-- A run over the input and output of a saved checkpoint goes on. -/
theorem resumption_of_saved {files after : FileSystem} (tree : files.IsTree) {path : Path}
    {checkpoint : Checkpoint}
    (saved : Run.store path checkpoint.render files = .ok () after) :
    Run.resumption true path checkpoint.input checkpoint.output after =
      .ok (Resumption.ofCheckpoint (read? checkpoint.render) checkpoint.input checkpoint.output)
        after := by
  have found := Run.read_of_store tree saved
  have last : Run.lastCheckpoint path after = .ok (read? checkpoint.render) after := by
    unfold Run.lastCheckpoint
    rw [Run.get_bind_apply, if_pos (FileSystem.pathExists_of_read found),
      Run.bind_of_ok (Run.load_of_read found)]
    rfl
  unfold Run.resumption
  rw [if_pos rfl, Run.bind_of_ok last]
  rfl

theorem ofCheckpoint_eq_startingAt {noted : Option Checkpoint} {checkpoint : Checkpoint} :
    Resumption.ofCheckpoint noted checkpoint.input checkpoint.output =
        .startingAt checkpoint.file ↔
      noted = some checkpoint := by
  constructor
  · intro goesOn
    unfold Resumption.ofCheckpoint at goesOn
    split at goesOn
    · next found =>
      split at goesOn
      · next same =>
        obtain ⟨input, output, file⟩ := found
        obtain ⟨rfl, rfl⟩ := same
        cases goesOn
        rfl
      · cases goesOn
    · cases goesOn
  · rintro rfl
    exact if_pos ⟨rfl, rfl⟩

/-- A checkpoint is read as it was written if and only if its input and its output hold no
bar and its file does not end with a line end.  A text that is read is written again
without the line ends behind it, and a text is read if two bars are left in it.  So a run
over the input and output of a saved checkpoint goes on at its file if and only if the
checkpoint is one of those. -/
theorem read_render_exact :
    (∀ checkpoint : Checkpoint,
      read? checkpoint.render = some checkpoint ↔ checkpoint.IsReadable) ∧
      (∀ text checkpoint, read? text = some checkpoint →
        TrimsTo text.toList checkpoint.render.toList) ∧
      (∀ (text : String) trimmed, TrimsTo text.toList trimmed →
        ((read? text).isSome ↔ 2 ≤ trimmed.count '|')) ∧
      ∀ (files after : FileSystem) (path : Path) (checkpoint : Checkpoint), files.IsTree →
        Run.store path checkpoint.render files = .ok () after →
        ∃ resumption, Run.resumption true path checkpoint.input checkpoint.output after =
            .ok resumption after ∧
          (resumption = .startingAt checkpoint.file ↔ checkpoint.IsReadable) := by
  refine ⟨fun checkpoint => read?_render_iff, ?_, ?_, ?_⟩
  · intro text checkpoint found
    exact trimsTo_iff.mpr (read?_eq_some.mp found).1
  · intro text trimmed trims
    rw [isSome_read?_iff, trimsTo_iff.mp trims]
  · intro files after path checkpoint tree saved
    refine ⟨_, resumption_of_saved tree saved, ?_⟩
    rw [ofCheckpoint_eq_startingAt, read?_render_iff]

/-- A checkpoint whose file holds a bar. -/
def plainCheckpoint : Checkpoint :=
  ⟨"src", "out", "a|b.as"⟩

/-- It is read as it was written, also with line ends behind it, and a run goes on at its
file. -/
theorem read_render_exact_plain :
    read? plainCheckpoint.render = some plainCheckpoint ∧
      TrimsTo "src|out|a|b.as\r\n".toList plainCheckpoint.render.toList ∧
      (read? "src|out|a|b.as\r\n").isSome ∧
      ∃ after, Run.store ⟨"tmp/last.txt"⟩ plainCheckpoint.render Job.pairFiles = .ok () after ∧
        Run.resumption true ⟨"tmp/last.txt"⟩ "src" "out" after =
          .ok (.startingAt "a|b.as") after := by
  obtain ⟨renders, trims, accepts, resumes⟩ := read_render_exact
  have readable : plainCheckpoint.IsReadable :=
    ⟨by decide, by decide, endsPlain_iff.mpr (by decide)⟩
  have found : read? "src|out|a|b.as\r\n" = some plainCheckpoint := by decide
  have trimmed := trims _ plainCheckpoint found
  have stored : (Job.value? (Run.store ⟨"tmp/last.txt"⟩ plainCheckpoint.render
      Job.pairFiles)).isSome := by
    rw [Job.pairFiles_eq]
    decide
  obtain ⟨_, -, saved⟩ := Job.eq_ok_of_isSome stored
  have tree : Job.pairFiles.IsTree := FileSystem.isTree_ofFiles _
  obtain ⟨resumption, goesOn, isThere⟩ := resumes _ _ _ plainCheckpoint tree saved
  rw [isThere.mpr readable] at goesOn
  exact ⟨(renders _).mpr readable, trimmed, (accepts _ _ trimmed).mpr (by decide), _,
    saved, goesOn⟩

example : read? (render ⟨"src", "out", "a.as\n"⟩) = some ⟨"src", "out", "a.as"⟩ ∧
    read? (render ⟨"s|rc", "out", "a.as"⟩) = some ⟨"s", "rc", "out|a.as"⟩ := by
  decide

end Checkpoint

end ScriptBridge
