import Notebook.Proofs.Markup.RoundTrip
/-!
# The grammar of rendered text

A document is a row of blocks with nothing but blank lines before, between and behind them. The reader
takes exactly the documents. Where it stops, what it has read so far still begins a document, and with the
line at which it stops it does not any more; only an open block at the end of the lines is no line too
many, but one too few.
-/
namespace Notebook

namespace Markup

open Text

variable {tag line : Text} {lines past rest : List Text} {blocks more : List Block} {k : Nat}
  {opened : Option OpenBlock} {fault other : MarkupFault}

/-- Lines are a document, and these are its blocks. -/
inductive Document (tag : Text) : List Text → List Block → Prop
  | empty : Document tag [] []
  | blank {line : Text} {lines : List Text} {blocks : List Block} : isBlank line = true →
      Document tag lines blocks → Document tag (line :: lines) blocks
  | block (kind : Kind) {content lines : List Text} {blocks : List Block} :
      endMarker tag ∉ content → Document tag lines blocks →
      Document tag (startMarker tag kind :: content ++ endMarker tag :: lines)
        (⟨kind, unlines content⟩ :: blocks)

/-- Some document begins with the lines. -/
def Begins (tag : Text) (lines : List Text) : Prop :=
  ∃ rest blocks, Document tag (lines ++ rest) blocks

/-- The line is the first one with which no document begins any more. -/
def StopsAt (tag : Text) (lines : List Text) (k : Nat) : Prop :=
  IsLeast {n | ¬Begins tag (lines.take (n + 1))} k

/-- A line that has no place between blocks, and the fault that it is as line `k`. -/
inductive Misplaced (tag : Text) (k : Nat) : Text → MarkupFault → Prop
  | unknownKind {name : Text} : name ≠ [] → name.all isLatinLetter = true →
      Kind.named? name = none →
      Misplaced tag k ("# <<" ++ tag ++ ":" ++ name ++ ">>") (.unknownKind k name)
  | unmatchedEnd : Misplaced tag k (endMarker tag) (.unmatchedEnd k)
  | strayText {line : Text} : markedKind? tag line = none → line ≠ endMarker tag →
      isBlank line = false → Misplaced tag k line (.strayText k)

/-- What keeps lines from being a document, and where. -/
inductive Flaw (tag : Text) (lines : List Text) : MarkupFault → Prop
  | misplaced {k : Nat} {line : Text} {fault : MarkupFault} : StopsAt tag lines k →
      lines[k]? = some line → Misplaced tag k line fault → Flaw tag lines fault
  /-- A block was opened behind a document and never closed. -/
  | unterminated {before content : List Text} {blocks : List Block} {kind : Kind} :
      (∀ n, Begins tag (lines.take n)) → lines = before ++ startMarker tag kind :: content →
      Document tag before blocks → endMarker tag ∉ content →
      Flaw tag lines (.unterminated before.length)

/-! ## Lines between blocks -/

/-- A line between blocks is the start of one, is blank, or stops the reader. -/
theorem between_cases (tag : Text) (k : Nat) (line : Text) :
    (∃ kind, line = startMarker tag kind ∧ ∀ rest,
      readLines tag k none (line :: rest) = readLines tag (k + 1) (some ⟨k, kind, []⟩) rest) ∨
    (isBlank line = true ∧
      ∀ rest, readLines tag k none (line :: rest) = readLines tag (k + 1) none rest) ∨
    ∃ fault, Misplaced tag k line fault := by
  cases marked : markedKind? tag line with
  | some name =>
    obtain ⟨rfl, some, letters⟩ := markedKind?_eq_some_iff.mp marked
    cases known : Kind.named? name with
    | none => exact .inr (.inr ⟨_, .unknownKind some letters known⟩)
    | some kind =>
      obtain rfl := Kind.name_of_named? known
      exact .inl ⟨kind, rfl, fun rest => by simp only [readLines, marked, known]⟩
  | none =>
    by_cases closes : line = endMarker tag
    · subst closes
      exact .inr (.inr ⟨_, .unmatchedEnd⟩)
    · by_cases blank : isBlank line = true
      · exact .inr (.inl ⟨blank, fun rest => by simp [readLines, marked, closes, blank]⟩)
      · exact .inr (.inr ⟨_, .strayText marked closes (Bool.eq_false_iff.mpr blank)⟩)

theorem Misplaced.readLines_eq (misplaced : Misplaced tag k line fault) (rest : List Text) :
    readLines tag k none (line :: rest) = .error fault := by
  cases misplaced with
  | unknownKind some letters unknown =>
    rw [readLines, markedKind?_eq_some_iff.mpr ⟨rfl, some, letters⟩]
    simp only [unknown]
  | unmatchedEnd => simp [readLines, markedKind?_endMarker]
  | strayText unmarked other text => simp [readLines, unmarked, other, text]

theorem readLines_of_blank (blank : isBlank line = true) (k : Nat) (rest : List Text) :
    readLines tag k none (line :: rest) = readLines tag (k + 1) none rest := by
  -- Markers begin with a sign that is not blank.
  have sign : '#' ∉ line := fun member =>
    absurd (List.all_eq_true.mp blank '#' member) (by decide)
  rcases between_cases tag k line with ⟨kind, rfl, -⟩ | ⟨-, read⟩ | ⟨fault, misplaced⟩
  · exact absurd (by simp [startMarker_eq]) sign
  · exact read rest
  · cases misplaced with
    | unknownKind => exact absurd (by simp) sign
    | unmatchedEnd => exact absurd (by simp [endMarker_eq]) sign
    | strayText _ _ text => rw [text] at blank; cases blank

/-! ## Documents are read -/

theorem Document.append (first : Document tag past blocks) (second : Document tag rest more) :
    Document tag (past ++ rest) (blocks ++ more) := by
  induction first with
  | empty => exact second
  | blank blank _ ih => exact .blank blank ih
  | block kind free _ ih =>
    rw [List.append_assoc, List.cons_append, List.cons_append]
    exact .block kind free ih

theorem document_block (kind : Kind) {content : List Text} (free : endMarker tag ∉ content) :
    Document tag (startMarker tag kind :: content ++ [endMarker tag]) [⟨kind, unlines content⟩] :=
  .block kind free .empty

/-- Behind a document reading goes on as at the start. -/
theorem Document.readLines_append (document : Document tag past blocks) (k : Nat)
    (rest : List Text) : readLines tag k none (past ++ rest) =
      (readLines tag (k + past.length) none rest).map (blocks ++ ·) := by
  induction document generalizing k with
  | empty =>
    rw [List.nil_append, List.length_nil, Nat.add_zero]
    cases readLines tag k none rest <;> rfl
  | blank blank _ ih =>
    rw [List.cons_append, readLines_of_blank blank, ih, List.length_cons, Nat.add_right_comm,
      Nat.add_assoc]
  | @block kind content lines blocks free _ ih =>
    have index : k + 1 + content.length + 1 + lines.length =
        k + (startMarker tag kind :: content ++ endMarker tag :: lines).length := by
      simp only [List.length_cons, List.length_append]
      omega
    rw [List.append_assoc, List.cons_append, List.cons_append, readLines, markedKind?_startMarker]
    simp only [Kind.named?_name]
    rw [readLines_content free, readLines, if_pos rfl, ih, List.append_nil, List.reverse_reverse,
      index]
    cases readLines tag _ none rest <;> rfl

theorem Document.readLines_eq (document : Document tag lines blocks) (k : Nat) :
    readLines tag k none lines = .ok blocks := by
  have read := document.readLines_append k []
  rwa [List.append_nil, readLines, Except.map, List.append_nil] at read

theorem readLines_unterminated {before content : List Text} {kind : Kind}
    (document : Document tag before blocks) (free : endMarker tag ∉ content) :
    readLines tag 0 none (before ++ startMarker tag kind :: content) =
      .error (.unterminated before.length) := by
  have read := readLines_content free (before.length + 1) ⟨before.length, kind, []⟩ []
  rw [List.append_nil] at read
  rw [document.readLines_append, Nat.zero_add, readLines, markedKind?_startMarker]
  simp only [Kind.named?_name]
  rw [read]
  rfl

/-! ## The state of the reader -/

/-- The lines that were read so far are a document, or a document and the beginning of a block. -/
inductive Reading (tag : Text) : List Text → Option OpenBlock → List Block → Prop
  | between {past : List Text} {blocks : List Block} : Document tag past blocks →
      Reading tag past none blocks
  | inside {before content : List Text} {blocks : List Block} (kind : Kind) :
      Document tag before blocks → endMarker tag ∉ content →
      Reading tag (before ++ startMarker tag kind :: content)
        (some ⟨before.length, kind, content.reverse⟩) blocks

theorem Begins.of_append (begins : Begins tag (past ++ rest)) : Begins tag past := by
  obtain ⟨further, blocks, document⟩ := begins
  exact ⟨rest ++ further, blocks, by rwa [← List.append_assoc]⟩

theorem Begins.take (begins : Begins tag past) (n : Nat) : Begins tag (past.take n) := by
  rw [← List.take_append_drop n past] at begins
  exact begins.of_append

/-- What was read can go on to a document: an open block only has to be closed. -/
theorem Reading.begins (reading : Reading tag past opened blocks) : Begins tag past := by
  cases reading with
  | between document => exact ⟨[], blocks, by rwa [List.append_nil]⟩
  | @inside before content blocks kind document free =>
    refine ⟨[endMarker tag], blocks ++ [⟨kind, unlines content⟩], ?_⟩
    rw [List.append_assoc]
    exact document.append (document_block kind free)

/-- A line that has no place behind a document is the first with which no document begins. -/
theorem Misplaced.stopsAt (misplaced : Misplaced tag past.length line fault)
    (document : Document tag past blocks) (rest : List Text) :
    StopsAt tag (past ++ line :: rest) past.length := by
  constructor
  · rintro ⟨further, others, whole⟩
    have first : (past ++ line :: rest).take (past.length + 1) = past ++ [line] := by
      rw [List.take_length_add_append, List.take_succ_cons, List.take_zero]
    rw [first, List.append_assoc, List.singleton_append] at whole
    have read := whole.readLines_eq 0
    rw [document.readLines_append, Nat.zero_add, misplaced.readLines_eq] at read
    cases read
  · intro n stops
    by_contra less
    apply stops
    rw [List.take_append_of_le_length (by omega)]
    exact (Reading.between document).begins.take (n + 1)

/-- What the reader makes of lines behind those that it has read: blocks that complete a document, or
a flaw of all of them. The induction is on the lines that are left, and the state carries it. -/
theorem Reading.outcome (reading : Reading tag past opened blocks) :
    (∀ more, readLines tag past.length opened rest = .ok more →
      Document tag (past ++ rest) (blocks ++ more)) ∧
    ∀ fault, readLines tag past.length opened rest = .error fault →
      Flaw tag (past ++ rest) fault := by
  induction rest generalizing past opened blocks with
  | nil =>
    rw [List.append_nil]
    have begins := reading.begins.take
    cases reading with
    | between document =>
      refine ⟨fun more read => ?_, fun _ failed => (by cases failed)⟩
      cases read
      rwa [List.append_nil]
    | inside kind document free =>
      refine ⟨fun _ read => (by cases read), fun fault failed => ?_⟩
      cases failed
      exact .unterminated begins rfl document free
  | cons line rest ih =>
    -- The line joins what was read, and the rest is one line shorter.
    have onward {opened : Option OpenBlock} {blocks : List Block}
        (next : Reading tag (past ++ [line]) opened blocks) :
        (∀ more, readLines tag (past.length + 1) opened rest = .ok more →
          Document tag (past ++ line :: rest) (blocks ++ more)) ∧
        ∀ fault, readLines tag (past.length + 1) opened rest = .error fault →
          Flaw tag (past ++ line :: rest) fault := by
      have outcome := ih next
      rwa [List.append_assoc, List.singleton_append, List.length_append] at outcome
    cases reading with
    | between document =>
      rcases between_cases tag past.length line with ⟨kind, rfl, read⟩ | ⟨blank, read⟩ |
        ⟨fault, misplaced⟩
      · rw [read]
        exact onward (.inside kind document List.not_mem_nil)
      · rw [read]
        have longer := document.append (.blank blank .empty)
        rw [List.append_nil] at longer
        exact onward (.between longer)
      · rw [misplaced.readLines_eq]
        refine ⟨fun _ read => (by cases read), fun found failed => ?_⟩
        cases failed
        exact .misplaced (misplaced.stopsAt document rest) (by simp) misplaced
    | @inside before content _ kind document free =>
      rw [readLines]
      split
      next closes =>
        have closed := document.append (document_block kind free)
        rw [← closes, ← List.append_assoc] at closed
        obtain ⟨complete, flaw⟩ := onward (.between closed)
        rw [List.reverse_reverse]
        cases later : readLines tag _ none rest with
        | ok found =>
          refine ⟨fun more read => ?_, fun _ failed => (by cases failed)⟩
          cases read
          simpa using complete found later
        | error found =>
          refine ⟨fun _ read => (by cases read), fun fault failed => ?_⟩
          cases failed
          exact flaw found later
      next other =>
        have longer : endMarker tag ∉ content ++ [line] := by simpa [free] using Ne.symm other
        have next := Reading.inside kind document longer
        rw [List.reverse_append, ← List.cons_append, ← List.append_assoc] at next
        exact onward next

/-! ## Flaws -/

theorem Misplaced.unique (one : Misplaced tag k line fault) (two : Misplaced tag k line other) :
    fault = other := by
  have same := (one.readLines_eq []).symm.trans (two.readLines_eq [])
  exact Except.error.inj same

/-- What is read is a document, and what is refused has a flaw. -/
theorem parseLines_outcome (tag : Text) (lines : List Text) :
    (∀ blocks, parseLines tag lines = .ok blocks → Document tag lines blocks) ∧
    ∀ fault, parseLines tag lines = .error fault → Flaw tag lines fault :=
  (Reading.between Document.empty).outcome

/-- Lines that have a flaw are refused for it. -/
theorem Flaw.parseLines_eq (flaw : Flaw tag lines fault) : parseLines tag lines = .error fault := by
  obtain ⟨document, found⟩ := parseLines_outcome tag lines
  cases flaw with
  | @misplaced k line _ stops here misplaced =>
    cases read : parseLines tag lines with
    | ok blocks =>
      have begins : Begins tag lines := ⟨[], blocks, by rw [List.append_nil]; exact document _ read⟩
      exact absurd (begins.take (k + 1)) stops.1
    | error other =>
      cases found other read with
      | misplaced stops' here' misplaced' =>
        obtain rfl := IsLeast.unique stops stops'
        obtain rfl := Option.some.inj (here.symm.trans here')
        rw [misplaced.unique misplaced']
      | unterminated begins => exact absurd (begins (k + 1)) stops.1
  | unterminated _ split document free =>
    rw [split, parseLines, readLines_unterminated document free]

/-- Exactly the documents are read, and as their blocks. Lines are refused exactly for the flaw that they
have. With the line that a fault names no document begins any more, while one begins with the lines before
it; but if the lines end in an open block, some document begins with all of them, and the fault names the
line that opened the block. -/
theorem parseLines_grammar (tag : Text) (lines : List Text) :
    (∀ blocks, parseLines tag lines = .ok blocks ↔ Document tag lines blocks) ∧
    ∀ fault, parseLines tag lines = .error fault ↔ Flaw tag lines fault := by
  obtain ⟨document, flaw⟩ := parseLines_outcome tag lines
  exact ⟨fun blocks => ⟨document blocks, fun whole => whole.readLines_eq 0⟩,
    fun fault => ⟨flaw fault, Flaw.parseLines_eq⟩⟩

/-- A start marker without a kind is no start marker, and one of an unknown kind is content in a block. -/
example : parseLines "nb" ["# <<nb:raw>>", "# <<nb:sql>>", "# <</nb>>", "\t", "# <<nb:>>"] =
    .error (.strayText 4) := by decide

end Markup

end Notebook
