import NetRelocation.Subscription.Reader

/-!
# Lines of a file that grows

`completeLines` are the lines that some bytes complete. Lines are known by what they consist of: if
whole lines stand at the beginning of some bytes, they are the first lines of these bytes
(`prefix_completeLines`), and if nothing but an unfinished line follows, they are all of them
(`completeLines_eq`).

A reader of a growing file goes on where it stands (`FileReader.Continues`): what was read as lines,
the unfinished line and what has not been looked at are together the bytes that it has taken. Every
step of a reader keeps this, and at the end of the file every complete line was read.
-/

namespace NetRelocation

/-! ## Complete lines -/

/-- Some bytes are a line: they end with their only newline. -/
def IsLine (line : List UInt8) : Prop := ∃ body, newline ∉ body ∧ line = body ++ [newline]

/-- The lines that some bytes complete. -/
def completeLines : List UInt8 → List (List UInt8)
  | [] => []
  | b :: bs =>
    if b = newline then [b] :: completeLines bs
    else
      match completeLines bs with
      | [] => []
      | line :: lines => (b :: line) :: lines

theorem IsLine.length_pos {line : List UInt8} (h : IsLine line) : 0 < line.length := by
  obtain ⟨body, -, rfl⟩ := h
  simp

theorem isLine_newline : IsLine [newline] := ⟨[], List.not_mem_nil, rfl⟩

theorem IsLine.cons {line : List UInt8} (h : IsLine line) {b : UInt8} (hb : b ≠ newline) :
    IsLine (b :: line) := by
  obtain ⟨body, hbody, rfl⟩ := h
  refine ⟨b :: body, ?_, rfl⟩
  rw [List.mem_cons, not_or]
  exact ⟨hb.symm, hbody⟩

theorem IsLine.append {line front : List UInt8} (h : IsLine line) (hfront : newline ∉ front) :
    IsLine (front ++ line) := by
  induction front with
  | nil => exact h
  | cons b front ih =>
    rw [List.mem_cons, not_or] at hfront
    exact (ih hfront.2).cons (Ne.symm hfront.1)

theorem completeLines_of_not_mem {bytes : List UInt8} (h : newline ∉ bytes) :
    completeLines bytes = [] := by
  induction bytes with
  | nil => rfl
  | cons b bs ih =>
    rw [List.mem_cons, not_or] at h
    rw [completeLines, if_neg (Ne.symm h.1), ih h.2]

theorem completeLines_line_append {line : List UInt8} (h : IsLine line) (rest : List UInt8) :
    completeLines (line ++ rest) = line :: completeLines rest := by
  obtain ⟨body, hbody, rfl⟩ := h
  induction body with
  | nil => rfl
  | cons b body ih =>
    rw [List.mem_cons, not_or] at hbody
    show completeLines (b :: (body ++ [newline] ++ rest)) = _
    rw [completeLines, if_neg (Ne.symm hbody.1), ih hbody.2]
    rfl

theorem completeLines_flatten_append {lines : List (List UInt8)} (h : ∀ line ∈ lines, IsLine line)
    (rest : List UInt8) : completeLines (lines.flatten ++ rest) = lines ++ completeLines rest := by
  induction lines with
  | nil => rfl
  | cons line lines ih =>
    have hline := h line List.mem_cons_self
    have hlines := ih fun l hl => h l (List.mem_cons_of_mem _ hl)
    rw [List.flatten_cons, List.append_assoc, completeLines_line_append hline, hlines]
    rfl

theorem prefix_completeLines {lines : List (List UInt8)} (h : ∀ line ∈ lines, IsLine line)
    {bytes : List UInt8} (hp : lines.flatten <+: bytes) : lines <+: completeLines bytes := by
  obtain ⟨rest, rfl⟩ := hp
  rw [completeLines_flatten_append h]
  exact List.prefix_append _ _

/-- Whole lines with nothing but an unfinished one after them are all lines. -/
theorem completeLines_eq {lines : List (List UInt8)} (h : ∀ line ∈ lines, IsLine line)
    {rest : List UInt8} (hrest : newline ∉ rest) :
    completeLines (lines.flatten ++ rest) = lines := by
  rw [completeLines_flatten_append h, completeLines_of_not_mem hrest, List.append_nil]

/-- Some bytes are their complete lines and the beginning of a line. -/
theorem exists_lines_append (bytes : List UInt8) :
    ∃ (lines : List (List UInt8)) (rest : List UInt8), (∀ line ∈ lines, IsLine line) ∧
      newline ∉ rest ∧ bytes = lines.flatten ++ rest := by
  induction bytes with
  | nil => exact ⟨[], [], nofun, List.not_mem_nil, rfl⟩
  | cons b bs ih =>
    obtain ⟨lines, rest, hlines, hrest, rfl⟩ := ih
    by_cases hb : b = newline
    · subst hb
      refine ⟨[newline] :: lines, rest, ?_, hrest, rfl⟩
      rintro line (_ | ⟨_, hl⟩)
      · exact isLine_newline
      · exact hlines line hl
    · cases lines with
      | nil =>
        refine ⟨[], b :: rest, nofun, ?_, rfl⟩
        rw [List.mem_cons, not_or]
        exact ⟨Ne.symm hb, hrest⟩
      | cons line lines =>
        refine ⟨(b :: line) :: lines, rest, ?_, hrest, rfl⟩
        rintro l (_ | ⟨_, hl⟩)
        · exact (hlines line List.mem_cons_self).cons hb
        · exact hlines l (List.mem_cons_of_mem _ hl)

theorem completeLines_spec (bytes : List UInt8) :
    (∀ line ∈ completeLines bytes, IsLine line) ∧
      ∃ rest, newline ∉ rest ∧ bytes = (completeLines bytes).flatten ++ rest := by
  obtain ⟨lines, rest, hlines, hrest, rfl⟩ := exists_lines_append bytes
  rw [completeLines_eq hlines hrest]
  exact ⟨hlines, rest, hrest, rfl⟩

theorem isLine_of_completeLines {bytes : List UInt8} {lines rest : List (List UInt8)}
    (h : completeLines bytes = lines ++ rest) : ∀ line ∈ lines, IsLine line := fun line hline =>
  (completeLines_spec bytes).1 line (h ▸ List.mem_append_left rest hline)

/-! ## Cutting off a line -/

theorem cutLine_eq_none_iff {bytes : List UInt8} : cutLine bytes = none ↔ newline ∉ bytes := by
  induction bytes with
  | nil => exact ⟨fun _ => List.not_mem_nil, fun _ => rfl⟩
  | cons b bs ih =>
    rw [cutLine, List.mem_cons, not_or]
    by_cases hb : b = newline
    · simp [hb]
    · rw [if_neg hb, Option.map_eq_none_iff, ih]
      exact ⟨fun h => ⟨Ne.symm hb, h⟩, fun h => h.2⟩

/-- What is cut off is a line, and the rest comes after it. -/
theorem eq_append_of_cutLine {bytes line rest : List UInt8}
    (h : cutLine bytes = some (line, rest)) : IsLine line ∧ bytes = line ++ rest := by
  induction bytes generalizing line with
  | nil => cases h
  | cons b bs ih =>
    rw [cutLine] at h
    by_cases hb : b = newline
    · rw [if_pos hb] at h
      cases h
      exact ⟨hb ▸ isLine_newline, rfl⟩
    · rw [if_neg hb, Option.map_eq_some_iff] at h
      obtain ⟨⟨line', rest'⟩, hcut, heq⟩ := h
      cases heq
      obtain ⟨hline, rfl⟩ := ih hcut
      exact ⟨hline.cons hb, rfl⟩

/-! ## The steps of a reader -/

namespace FileReader

/-- The reader goes on in the content after the bytes that were read as lines. -/
structure Continues (reader : FileReader) (content read : List UInt8) : Prop where
  taken : content.take reader.position = read ++ reader.buffer.line ++ reader.buffer.ahead
  inside : reader.position ≤ content.length
  unfinished : newline ∉ reader.buffer.line

variable {reader next : FileReader} {content read : List UInt8}

theorem Continues.read_prefix (h : reader.Continues content read) : read <+: content := by
  have htake := List.take_prefix reader.position content
  rw [h.taken, List.append_assoc] at htake
  exact (List.prefix_append _ _).trans htake

theorem Continues.length_read_le (h : reader.Continues content read) :
    read.length ≤ reader.position := by
  have hlen := congrArg List.length h.taken
  rw [List.length_take_of_le h.inside] at hlen
  simp only [List.length_append] at hlen
  omega

/-- A reader that starts after whole lines goes on after them. -/
theorem continues_startingAt (h : read <+: content) :
    (startingAt read.length).Continues content read where
  taken := by
    rw [startingAt, List.prefix_iff_eq_take.1 h]
    simp [LineBuffer.empty]
  inside := h.length_le
  unfinished := List.not_mem_nil

theorem Continues.append (h : reader.Continues content read) (bytes : List UInt8) :
    reader.Continues (content ++ bytes) read where
  taken := by rw [List.take_append_of_le_length h.inside, h.taken]
  inside := Nat.le_trans h.inside (by simp)
  unfinished := h.unfinished

/-- What a step found and where the reader stands next. A line is found in what was taken, whatever
the file holds by then. -/
theorem step_spec (reader : FileReader) (file : List UInt8) :
    match reader.step file with
    | .line line next => ∃ front rest, cutLine reader.buffer.ahead = some (front, rest) ∧
        line = reader.buffer.line ++ front ∧ next = ⟨reader.position, ⟨[], rest⟩⟩
    | .filled next => cutLine reader.buffer.ahead = none ∧ reader.available file ≠ [] ∧
        next = ⟨reader.position + (reader.available file).length,
          reader.buffer.fill (reader.available file)⟩
    | .idle next => cutLine reader.buffer.ahead = none ∧ reader.available file = [] ∧
        next = ⟨reader.position, reader.buffer.absorb⟩ := by
  unfold step LineBuffer.next?
  cases hcut : cutLine reader.buffer.ahead with
  | some cut => exact ⟨_, _, rfl, rfl, rfl⟩
  | none =>
    dsimp only [Option.map_none]
    cases hbytes : reader.available file with
    | nil => exact ⟨rfl, rfl, rfl⟩
    | cons b bs => exact ⟨rfl, List.cons_ne_nil b bs, rfl⟩

theorem length_available_le (reader : FileReader) (file : List UInt8) :
    (reader.available file).length ≤ file.length - reader.position := by
  rw [available, List.length_take, List.length_drop]
  exact Nat.min_le_right _ _

/-- Reading a line moves it from what was taken to what was read. -/
theorem Continues.of_step_line {file line : List UInt8} (h : reader.Continues content read)
    (hs : reader.step file = .line line next) :
    IsLine line ∧ next.Continues content (read ++ line) := by
  obtain ⟨front, rest, hcut, rfl, rfl⟩ := hs ▸ reader.step_spec file
  obtain ⟨hfront, hahead⟩ := eq_append_of_cutLine hcut
  refine ⟨hfront.append h.unfinished, ?_, h.inside, List.not_mem_nil⟩
  rw [h.taken, hahead]
  simp

/-- What was looked at without a newline belongs to the unfinished line. -/
theorem Continues.absorb (h : reader.Continues content read)
    (hcut : cutLine reader.buffer.ahead = none) :
    (⟨reader.position, reader.buffer.absorb⟩ : FileReader).Continues content read where
  taken := by
    rw [h.taken]
    simp [LineBuffer.absorb]
  inside := h.inside
  unfinished := by
    rw [LineBuffer.absorb, List.mem_append, not_or]
    exact ⟨h.unfinished, cutLine_eq_none_iff.1 hcut⟩

theorem Continues.of_step_filled (h : reader.Continues content read)
    (hs : reader.step content = .filled next) : next.Continues content read := by
  obtain ⟨hcut, -, rfl⟩ := hs ▸ reader.step_spec content
  have habsorb := h.absorb hcut
  refine ⟨?_, ?_, habsorb.unfinished⟩
  · have hportion : (content.drop reader.position).take (reader.available content).length =
        reader.available content := by
      rw [available, List.length_take, List.take_eq_take_iff]
      omega
    rw [List.take_add, hportion, habsorb.taken]
    simp [LineBuffer.absorb, LineBuffer.fill]
  · have hinside := h.inside
    have hlen := length_available_le reader content
    show reader.position + _ ≤ _
    omega

theorem Continues.of_step_idle {file : List UInt8} (h : reader.Continues content read)
    (hs : reader.step file = .idle next) :
    next.Continues content read ∧ next.buffer.ahead = [] ∧ file.length ≤ next.position := by
  obtain ⟨hcut, hnone, rfl⟩ := hs ▸ reader.step_spec file
  refine ⟨h.absorb hcut, rfl, ?_⟩
  rw [available, List.take_eq_nil_iff, List.drop_eq_nil_iff] at hnone
  exact hnone.resolve_left (by decide)

theorem not_filled_of_length_le {file : List UInt8} (h : file.length ≤ reader.position) :
    reader.step file ≠ .filled next := by
  intro hs
  obtain ⟨-, hbytes, -⟩ := hs ▸ reader.step_spec file
  refine hbytes ?_
  rw [available, List.drop_eq_nil_of_le h, List.take_nil]

theorem Continues.completeLines_eq {lines : List (List UInt8)}
    (hlines : ∀ line ∈ lines, IsLine line) (h : reader.Continues content lines.flatten)
    (hahead : reader.buffer.ahead = [])
    (hend : content.length ≤ reader.position) : completeLines content = lines := by
  have htaken := h.taken
  rw [List.take_of_length_le hend, hahead, List.append_nil] at htaken
  rw [htaken]
  exact NetRelocation.completeLines_eq hlines h.unfinished

/-- The line that a reader comes to is the first that was not read. -/
theorem Continues.rest_eq_cons {line : List UInt8} {lines rest : List (List UInt8)}
    (h : reader.Continues content lines.flatten) (hlines : completeLines content = lines ++ rest)
    (hs : reader.step content = .line line next) :
    next.Continues content (lines ++ [line]).flatten ∧ ∃ rest', rest = line :: rest' := by
  obtain ⟨hline, hnext⟩ := h.of_step_line hs
  have hflatten : (lines ++ [line]).flatten = lines.flatten ++ line := by simp
  rw [← hflatten] at hnext
  refine ⟨hnext, ?_⟩
  have hread : ∀ l ∈ lines ++ [line], IsLine l := by
    intro l hl
    rcases List.mem_append.1 hl with hl | hl
    · exact isLine_of_completeLines hlines l hl
    · exact List.mem_singleton.1 hl ▸ hline
  obtain ⟨rest', hrest'⟩ := prefix_completeLines hread hnext.read_prefix
  rw [hlines, List.append_assoc, List.append_cancel_left_eq] at hrest'
  exact ⟨rest', hrest'.symm⟩

/-- At the end of a file no line is left. -/
theorem Continues.rest_eq_nil {lines rest : List (List UInt8)}
    (h : reader.Continues content lines.flatten) (hlines : completeLines content = lines ++ rest)
    (hs : reader.step content = .idle next) :
    next.Continues content lines.flatten ∧ rest = [] := by
  obtain ⟨hnext, hahead, hend⟩ := h.of_step_idle hs
  refine ⟨hnext, ?_⟩
  rw [hnext.completeLines_eq (isLine_of_completeLines hlines) hahead hend] at hlines
  exact List.self_eq_append_right.1 hlines

end FileReader

end NetRelocation
