import Gridwalk.Diagnostic
import Gridwalk.Proofs.LineLaws

/-!
# Excerpts in colours and without

An excerpt in colours is the plain one with a sequence before and a sequence after some of its
pieces. `Text.uncoloured` deletes such sequences from a text. It gives the plain excerpt back as long
as nothing but the colours starts a sequence (`uncoloured_renderSpans`).

`Diagnostic.rows` are the rows of the plain excerpt, written out. They are its lines as long as no
name in it holds a line feed (`pieces_render`). Control characters can come from the names in an
error and from the line that is shown, and from nowhere else (`not_mem_rows`), which serves both.
With a line to show, the excerpt has the six rows of `explainedRows`, in colours or plain
(`render_of_line`).
-/

namespace Gridwalk

-- ---------------------------------------------------------------------------
-- Texts without their colours
-- ---------------------------------------------------------------------------

namespace Text

def sequences : List (List Char) :=
  (resetSequence :: [Colour.red, .green, .yellow, .blue, .magenta, .cyan].map Colour.sequence).map
    String.toList

/-- Drops `n` characters and, from there on, every sequence. -/
def dropSequences : (n : Nat) → List Char → List Char
  | _, [] => []
  | n + 1, _ :: rest => dropSequences n rest
  | 0, c :: rest =>
    match sequences.find? (·.isPrefixOf (c :: rest)) with
    | some sequence => dropSequences (sequence.length - 1) rest
    | none => c :: dropSequences 0 rest

def uncoloured (text : String) : String := String.ofList (dropSequences 0 text.toList)

/-- The text in the colour, where colours are shown. -/
def Colour.paint (colours : Bool) (colour : Colour) (text : String) : String :=
  if colours then colour.sequence ++ text ++ resetSequence else text

theorem render_plain (colours : Bool) (text : String) :
    (Span.plain text).render colours = text := by
  cases colours <;> rfl

theorem render_span (colours : Bool) (colour : Colour) (text : String) :
    (colour.span text).render colours = colour.paint colours text := by
  cases colours <;> rfl

section
variable {c : Char} {cs ds : List Char} {spans : List Span}

theorem dropSequences_reset (ds : List Char) :
    dropSequences 0 (resetSequence.toList ++ ds) = dropSequences 0 ds := rfl

theorem dropSequences_colour (colour : Colour) (ds : List Char) :
    dropSequences 0 (colour.sequence.toList ++ ds) = dropSequences 0 ds := by
  cases colour <;> rfl

theorem dropSequences_cons (h : c ≠ '\x1b') :
    dropSequences 0 (c :: ds) = c :: dropSequences 0 ds := by
  have hnone : sequences.find? (·.isPrefixOf (c :: ds)) = none := by
    simp [sequences, resetSequence, Colour.sequence, List.isPrefixOf, Ne.symm h]
  rw [dropSequences, hnone]

theorem dropSequences_append (h : '\x1b' ∉ cs) :
    dropSequences 0 (cs ++ ds) = cs ++ dropSequences 0 ds := by
  induction cs with
  | nil => rfl
  | cons c cs ih =>
    obtain ⟨hc, hcs⟩ := not_or.1 (mt List.mem_cons.2 h)
    rw [List.cons_append, dropSequences_cons (Ne.symm hc), ih hcs, List.cons_append]

theorem dropSequences_render {span : Span} (h : '\x1b' ∉ span.text.toList) :
    dropSequences 0 ((span.render true).toList ++ ds) =
      span.text.toList ++ dropSequences 0 ds := by
  obtain ⟨_ | colour, text⟩ := span
  · exact dropSequences_append h
  · simp only [Span.render, String.toList_append, List.append_assoc]
    rw [dropSequences_colour, dropSequences_append h, dropSequences_reset]

theorem toList_renderSpans_plain (spans : List Span) :
    (renderSpans false spans).toList = spans.flatMap (·.text.toList) := by
  simp [renderSpans, List.flatMap_map, Span.render]

/-- Where no piece holds an escape character, all sequences are those of the colours. -/
theorem uncoloured_renderSpans (h : '\x1b' ∉ (renderSpans false spans).toList) :
    uncoloured (renderSpans true spans) = renderSpans false spans := by
  rw [← String.toList_inj, uncoloured, String.toList_ofList]
  rw [toList_renderSpans_plain] at h ⊢
  rw [renderSpans, String.toList_join, List.flatMap_map]
  -- every sequence begins and ends within one piece
  induction spans with
  | nil => rfl
  | cons span spans ih =>
    obtain ⟨hspan, hspans⟩ := not_or.1 (mt List.mem_append.2 (List.flatMap_cons ▸ h))
    rw [List.flatMap_cons, List.flatMap_cons, dropSequences_render hspan, ih hspans]

end

end Text

-- ---------------------------------------------------------------------------
-- Where control characters come from
-- ---------------------------------------------------------------------------

namespace Text

section
variable {c : Char} {s t : String}

theorem not_mem_append (hs : c ∉ s.toList) (ht : c ∉ t.toList) : c ∉ (s ++ t).toList := by
  rw [String.toList_append, List.mem_append, not_or]
  exact ⟨hs, ht⟩

theorem not_mem_intercalate {names : List String} (hs : c ∉ s.toList)
    (h : ∀ name ∈ names, c ∉ name.toList) : c ∉ (s.intercalate names).toList := by
  induction names with
  | nil => simp
  | cons name names ih =>
    obtain ⟨hname, hnames⟩ := List.forall_mem_cons.1 h
    cases names with
    | nil => simpa using hname
    | cons other names =>
      rw [String.intercalate_cons_cons]
      exact not_mem_append (not_mem_append hname hs) (ih hnames)

theorem not_mem_printable {cs : List Char} (hc : c < ' ') (h : cs.all (' ' ≤ ·) = true) :
    c ∉ (String.ofList cs).toList := by
  rw [String.toList_ofList]
  intro hm
  have hle : ' ' ≤ c := by simpa using List.all_eq_true.1 h c hm
  exact Char.not_lt.2 hle hc

theorem digit_of_mem_number {n : Nat} (h : c ∈ (toString n).toList) : '0' ≤ c ∧ c ≤ '9' := by
  rw [Nat.toString_eq_repr, Nat.toList_repr] at h
  have hdigit := Nat.isDigit_of_mem_toDigits (by decide) (by decide) h
  simpa [Char.isDigit, Char.le_def] using hdigit

theorem not_mem_number (hc : c < ' ') (n : Nat) : c ∉ (toString n).toList := by
  intro hm
  have hle : ' ' ≤ c := Char.le_trans (by decide) (digit_of_mem_number hm).1
  exact Char.not_lt.2 hle hc

end

end Text

def LoadError.names : LoadError → List String
  | .unreadable file _ => [file]
  | .importCycle chain => chain
  | .widthMismatch place _ _ | .badName place | .badEntry place | .badRow place
  | .unterminated place | .strayText place => [place.unit]
  | .duplicateCommand key place => [key.text, place.unit]

section
open Text

variable {c : Char} {error : LoadError} {place : Location}

theorem Location.not_mem_describe (hc : c < ' ') (h : c ∉ place.unit.toList) :
    c ∉ place.describe.toList :=
  not_mem_append (not_mem_append (not_mem_append (not_mem_printable hc rfl) h)
    (not_mem_printable hc rfl)) (not_mem_number hc _)

namespace LoadError

theorem unit_mem_names (h : error.location? = some place) : place.unit ∈ error.names := by
  cases error with
  | unreadable | importCycle => cases h
  | duplicateCommand =>
    cases h
    exact .tail _ (.head _)
  | _ =>
    cases h
    exact .head _

theorem not_mem_message (hc : c < ' ') (h : ∀ name ∈ error.names, c ∉ name.toList) :
    c ∉ error.message.toList := by
  cases error with
  | unreadable file reason => exact not_mem_append (not_mem_printable hc rfl) (h file (.head _))
  | importCycle chain =>
    exact not_mem_append (not_mem_printable hc rfl)
      (not_mem_intercalate (not_mem_printable hc rfl) h)
  | duplicateCommand key place =>
    have hplace := place.not_mem_describe hc (h place.unit (.tail _ (.head _)))
    cases key with
    | main => exact not_mem_append (not_mem_printable hc rfl) hplace
    | command d =>
      have hkey : c ∉ d.toString.toList := h d.toString (.head _)
      exact not_mem_append (not_mem_append (not_mem_append (not_mem_printable hc rfl) hkey)
        (not_mem_printable hc rfl)) hplace
  | _ =>
    exact not_mem_append (not_mem_printable hc rfl)
      (Location.not_mem_describe hc (h _ (.head _)))

theorem not_mem_help {help : String} (hc : c < ' ') (h : error.help? = some help) :
    c ∉ help.toList := by
  cases error with
  | unreadable | importCycle => cases h
  | widthMismatch place expected found =>
    cases h
    exact not_mem_append (not_mem_append (not_mem_append (not_mem_printable hc rfl)
      (not_mem_number hc _)) (not_mem_printable hc rfl)) (not_mem_number hc _)
  | _ =>
    cases h
    exact not_mem_printable hc rfl

end LoadError

end

-- ---------------------------------------------------------------------------
-- Rows
-- ---------------------------------------------------------------------------

namespace Diagnostic

/-- The rows about a line: an empty one, the line behind its number, and carets below it. -/
def excerptRows (line : Nat) (source : String) : List String :=
  let margin := spaces ((toString line).length + 1)
  [ margin ++ "|",
    toString line ++ " | " ++ source,
    margin ++ "| " ++ String.ofList (List.replicate (max 1 source.length) '^') ]

def rows (error : LoadError) (text : String) : List String :=
  ("error: " ++ error.message) ::
    match error.location? with
    | none => []
    | some place =>
      (spaces (toString place.line).length ++ "--> " ++ place.unit ++ ":" ++ toString place.line) ::
        ((lineAt? text place.line).elim [] (excerptRows place.line) ++
          error.help?.elim [] fun help =>
            [spaces (toString place.line).length ++ " = help: " ++ help])

open Text (Colour) in
/-- The rows of the long form of an error that is at a line: the line stands behind its number, with
carets below it, and what to do comes last. -/
def explainedRows (colours : Bool) (message : String) (place : Location) (line help : String) :
    List String :=
  let number := toString place.line
  let margin := spaces number.length
  let bar := Colour.blue.paint colours "|"
  let carets := String.ofList (List.replicate (max 1 line.length) '^')
  [ Colour.red.paint colours "error" ++ ": " ++ message,
    margin ++ Colour.blue.paint colours "-->" ++ " " ++ place.unit ++ ":" ++ number,
    margin ++ " " ++ bar,
    Colour.blue.paint colours number ++ " " ++ bar ++ " " ++ line,
    margin ++ " " ++ bar ++ " " ++ Colour.red.paint colours carets,
    margin ++ " = " ++ Colour.green.paint colours "help" ++ ": " ++ help ]

section
open Text (not_mem_append not_mem_printable not_mem_number)

variable {c : Char} {error : LoadError} {text : String} {place : Location}

theorem spaces_succ (n : Nat) : spaces (n + 1) = spaces n ++ " " := by
  rw [← String.toList_inj]
  simp [spaces, List.replicate_succ']

theorem toList_excerpt (line : Nat) (source : String) :
    (excerpt line source).flatMap (·.text.toList) =
      (excerptRows line source).flatMap (·.toList ++ ['\n']) := by
  simp [excerpt, excerptRows, Text.Span.plain, Text.Colour.span, spaces_succ]

theorem toList_render_plain (error : LoadError) (text : String) :
    (render false error text).toList = (rows error text).flatMap (·.toList ++ ['\n']) := by
  have hself : ∀ s : String, toString s = s := fun _ => rfl
  rw [render, Text.toList_renderSpans_plain, spans, rows]
  cases error.location? with
  | none => simp [Text.Span.plain, Text.Colour.span]
  | some place =>
    dsimp only
    cases lineAt? text place.line <;> cases error.help? <;>
      simp [Text.Span.plain, Text.Colour.span, toList_excerpt, hself]

theorem render_of_line {line help : String} (hp : error.location? = some place)
    (hl : lineAt? text place.line = some line) (hh : error.help? = some help) (colours : Bool) :
    render colours error text =
      String.join ((explainedRows colours error.message place line help).map (· ++ "\n")) := by
  simp only [render, Text.renderSpans, spans, hp, hl, hh, excerpt, explainedRows]
  simp [Text.render_plain, Text.render_span, String.append_assoc]
  rfl

theorem not_mem_fill (hc : c < ' ') {d : Char} (hd : ' ' ≤ d) (n : Nat) :
    c ∉ (String.ofList (List.replicate n d)).toList := by
  rw [String.toList_ofList, List.mem_replicate]
  rintro ⟨-, rfl⟩
  exact Char.not_lt.2 hd hc

theorem not_mem_excerptRows (hc : c < ' ') {source : String} (hs : c ∉ source.toList) {line : Nat}
    {row : String} (h : row ∈ excerptRows line source) : c ∉ row.toList := by
  have hspaces := not_mem_fill hc (d := ' ') (by decide)
  simp only [excerptRows, List.mem_cons, List.not_mem_nil, or_false] at h
  rcases h with rfl | rfl | rfl
  · exact not_mem_append (hspaces _) (not_mem_printable hc rfl)
  · exact not_mem_append (not_mem_append (not_mem_number hc _) (not_mem_printable hc rfl)) hs
  · exact not_mem_append (not_mem_append (hspaces _) (not_mem_printable hc rfl))
      (not_mem_fill hc (by decide) _)

theorem not_mem_rows (hc : c < ' ') (hnames : ∀ name ∈ error.names, c ∉ name.toList)
    (hlines : ∀ line ∈ Text.lines text, c ∉ line) {row : String} (h : row ∈ rows error text) :
    c ∉ row.toList := by
  have hspaces := not_mem_fill hc (d := ' ') (by decide)
  -- the heading, and then the place, the rows about its line and the help
  rcases List.mem_cons.1 h with rfl | h
  · exact not_mem_append (not_mem_printable hc rfl) (LoadError.not_mem_message hc hnames)
  · cases hp : error.location? with
    | none => simp [hp] at h
    | some place =>
      simp only [hp, List.mem_cons, List.mem_append] at h
      rcases h with rfl | h | h
      · have hunit := hnames _ (LoadError.unit_mem_names hp)
        exact not_mem_append (not_mem_append (not_mem_append (not_mem_append (hspaces _)
          (not_mem_printable hc rfl)) hunit) (not_mem_printable hc rfl)) (not_mem_number hc _)
      · cases hl : lineAt? text place.line with
        | none => simp [hl] at h
        | some source =>
          obtain ⟨line, hline, rfl⟩ := Option.map_eq_some_iff.1 hl
          have hsource := hlines line (List.mem_of_getElem? hline)
          rw [hl] at h
          exact not_mem_excerptRows hc (by rwa [String.toList_ofList]) h
      · cases hh : error.help? with
        | none => simp [hh] at h
        | some help =>
          rw [hh] at h
          obtain rfl := List.mem_singleton.1 h
          exact not_mem_append (not_mem_append (hspaces _) (not_mem_printable hc rfl))
            (LoadError.not_mem_help hc hh)

theorem pieces_render (h : ∀ name ∈ error.names, '\n' ∉ name.toList) :
    Text.pieces (render false error text).toList = (rows error text).map String.toList := by
  have hrows : ∀ row ∈ (rows error text).map String.toList, '\n' ∉ row := by
    rw [List.forall_mem_map]
    intro row hrow
    exact not_mem_rows (by decide) h (fun _ => Text.newline_not_mem_of_mem_lines) hrow
  rw [← Text.pieces_unlines hrows, Text.unlines, String.toList_ofList, toList_render_plain,
    List.flatMap_map]

theorem uncoloured_render (htext : '\x1b' ∉ text.toList)
    (hnames : ∀ name ∈ error.names, '\x1b' ∉ name.toList) :
    Text.uncoloured (render true error text) = render false error text := by
  apply Text.uncoloured_renderSpans
  rw [← render, toList_render_plain, List.mem_flatMap]
  rintro ⟨row, hrow, hm⟩
  rcases List.mem_append.1 hm with hm | hm
  · refine not_mem_rows (by decide) hnames ?_ hrow hm
    intro line hline hm
    exact htext ((Text.sublist_of_mem_lines hline).subset hm)
  · simp at hm

theorem rows_of_line {raw : List Char} (hp : error.location? = some place)
    (hraw : (Text.pieces text.toList)[place.line - 1]? = some raw) :
    ∃ heading arrow help, rows error text = [heading, arrow] ++
      excerptRows place.line (String.ofList (Text.dropReturns raw)) ++ [help] := by
  have hline : lineAt? text place.line = some (String.ofList (Text.dropReturns raw)) := by
    simp [lineAt?, Text.lines, hraw]
  obtain ⟨help, hhelp⟩ := LoadError.exists_help hp
  refine ⟨"error: " ++ error.message,
    spaces (toString place.line).length ++ "--> " ++ place.unit ++ ":" ++ toString place.line,
    spaces (toString place.line).length ++ " = help: " ++ help, ?_⟩
  simp only [rows, hp, hline, hhelp, Option.elim_some, List.cons_append, List.nil_append]

end

-- ---------------------------------------------------------------------------
-- Columns
-- ---------------------------------------------------------------------------

/-- Three rows about a line that is shown as `shown`: one with nothing but a bar, one with the
number of the line before the bar and the line after it, and one with carets after the bar. -/
structure LinedUp (column : Nat) (number shown gutter source carets : List Char) : Prop where
  gutter_eq : gutter = List.replicate column ' ' ++ ['|']
  source_eq : source = number ++ [' ', '|', ' '] ++ shown
  carets_eq : carets =
    List.replicate column ' ' ++ ['|', ' '] ++ List.replicate (max 1 shown.length) '^'
  /-- The first bar of each row stands in the same column. -/
  bars : ∀ row ∈ [gutter, source, carets], row.idxOf? '|' = some column
  /-- The first caret stands in the column where the line starts. -/
  starts : source.drop (column + 2) = shown ∧ carets.idxOf? '^' = some (column + 2)

section
variable {c : Char} {front number : List Char}

theorem idxOf?_append_cons (h : c ∉ front) (back : List Char) :
    (front ++ c :: back).idxOf? c = some front.length := by
  induction front with
  | nil => simp [List.idxOf?_cons]
  | cons d front ih =>
    obtain ⟨hd, hfront⟩ := not_or.1 (mt List.mem_cons.2 h)
    simp [List.idxOf?_cons, ih hfront, Ne.symm hd]

theorem linedUp (hbar : '|' ∉ number) (shown : List Char) :
    LinedUp (number.length + 1) number shown
      (List.replicate (number.length + 1) ' ' ++ ['|'])
      (number ++ [' ', '|', ' '] ++ shown)
      (List.replicate (number.length + 1) ' ' ++ ['|', ' '] ++
        List.replicate (max 1 shown.length) '^') := by
  have hmargin : '|' ∉ List.replicate (number.length + 1) ' ' := by simp [List.mem_replicate]
  have hnumber : '|' ∉ number ++ [' '] := by simp [hbar]
  have hpoint : '^' ∉ List.replicate (number.length + 1) ' ' ++ ['|', ' '] := by
    simp [List.mem_replicate]
  refine ⟨rfl, rfl, rfl, ?_, List.drop_left' (by simp), ?_⟩
  · rw [List.forall_mem_cons, List.forall_mem_cons, List.forall_mem_singleton]
    refine ⟨?_, ?_, ?_⟩
    · simpa using idxOf?_append_cons hmargin []
    · simpa using idxOf?_append_cons hnumber (' ' :: shown)
    · simpa using idxOf?_append_cons hmargin (' ' :: List.replicate (max 1 shown.length) '^')
  · obtain ⟨n, hn⟩ := Nat.exists_eq_add_of_le' (Nat.le_max_left 1 shown.length)
    have hcarets : List.replicate (max 1 shown.length) '^' = '^' :: List.replicate n '^' := by
      rw [hn, List.replicate_succ]
    rw [hcarets]
    simpa using idxOf?_append_cons hpoint (List.replicate n '^')

end

/-- Whatever the error is and whatever the text, deleting the sequences from the excerpt in colours
gives the plain excerpt, as long as no escape character is in the text or in a name. The excerpt in
colours begins with a coloured piece. If the error is at a line of the text then the plain excerpt
has six lines: of the three about that line the first bars stand in one column, however many digits
the number of the line has, and the line is shown without the carriage returns at its end, with one
caret for each of its characters below it, or a single one if there are none. -/
theorem excerpt_lines_up (error : LoadError) (text : String) (hescape : '\x1b' ∉ text.toList)
    (hnames : ∀ name ∈ error.names, '\x1b' ∉ name.toList ∧ '\n' ∉ name.toList) :
    Text.uncoloured (render true error text) = render false error text ∧
    (Text.Colour.red.sequence ++ "error" ++ Text.resetSequence).toList <+:
      (render true error text).toList ∧
    ∀ place raw, error.location? = some place →
      (Text.pieces text.toList)[place.line - 1]? = some raw →
      ∃ heading arrow gutter source carets help shown returns,
        Text.pieces (render false error text).toList =
          [heading, arrow, gutter, source, carets, help] ∧
        raw = shown ++ List.replicate returns '\r' ∧ shown.getLast? ≠ some '\r' ∧
        LinedUp ((toString place.line).length + 1) (toString place.line).toList shown
          gutter source carets := by
  refine ⟨uncoloured_render hescape fun name hm => (hnames name hm).1, ?_, ?_⟩
  · rw [render, Text.renderSpans, spans, String.toList_join]
    exact List.prefix_append _ _
  · intro place raw hp hraw
    obtain ⟨heading, arrow, help, hrows⟩ := rows_of_line hp hraw
    obtain ⟨returns, hreturns⟩ := Text.exists_eq_dropReturns raw
    have hbar : '|' ∉ (toString place.line).toList :=
      fun hm => absurd (Text.digit_of_mem_number hm).2 (by decide)
    have hlined := linedUp hbar (Text.dropReturns raw)
    rw [String.length_toList] at hlined
    refine ⟨heading.toList, arrow.toList, _, _, _, help.toList, Text.dropReturns raw, returns, ?_,
      hreturns, Text.getLast?_dropReturns raw, hlined⟩
    rw [pieces_render fun name hm => (hnames name hm).2, hrows]
    simp [excerptRows, spaces]

def ragged : String := "\n\n\n\n\n\n\n\n\n\n\n\té|#\r\r\n"

theorem excerpt_lines_up_ragged :
    Text.uncoloured (render true (.badRow ⟨"p", 12⟩) ragged) =
      render false (.badRow ⟨"p", 12⟩) ragged ∧
    ∃ heading arrow gutter source carets help shown returns,
      Text.pieces (render false (.badRow ⟨"p", 12⟩) ragged).toList =
        [heading, arrow, gutter, source, carets, help] ∧
      ['\t', 'é', '|', '#', '\r', '\r'] = shown ++ List.replicate returns '\r' ∧
      shown.getLast? ≠ some '\r' ∧ LinedUp 3 ['1', '2'] shown gutter source carets := by
  obtain ⟨hplain, -, hlines⟩ :=
    excerpt_lines_up (.badRow ⟨"p", 12⟩) ragged (by decide) (by simp [LoadError.names])
  exact ⟨hplain, hlines ⟨"p", 12⟩ _ rfl rfl⟩

end Diagnostic

end Gridwalk
