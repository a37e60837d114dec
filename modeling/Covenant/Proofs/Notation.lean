import Covenant.Proofs.Tokens

/-!
# The notation read back

A value that is written with one entry a line is read back as it was, as long
as its doubles are read back from their own texts and it nests no deeper than
the reader goes.  The reader is followed token by token; a value, wherever it
may begin, ends up with the innermost open container.
-/

namespace Covenant.Json

mutual

/-- Whether every number of a value is a double that is read back from its own text. -/
@[simp]
def Readable : Json → Prop
  | integer _ => False
  | number value => ReadsBack value
  | array elements => ReadableElements elements
  | object entries => ReadableEntries entries
  | null | bool _ | string _ => True

/-- Whether every number of a sequence of values is read back. -/
@[simp]
def ReadableElements : List Json → Prop
  | [] => True
  | element :: rest => element.Readable ∧ ReadableElements rest

/-- Whether every number of a sequence of entries is read back. -/
@[simp]
def ReadableEntries : List (String × Json) → Prop
  | [] => True
  | (_, value) :: rest => value.Readable ∧ ReadableEntries rest

end

/-- The reader comes from one state to another, passing over the front of a text. -/
inductive Reads (limit : Nat) : State → List Char → State → List Char → Prop
  /-- Nothing is passed over. -/
  | done (state : State) (text : List Char) : Reads limit state text state text
  /-- A blank is skipped. -/
  | blank {state after : State} {text rest : List Char} {character : Char}
      (isSpace : isSpace character = true) (later : Reads limit state text after rest) :
      Reads limit state (character :: text) after rest
  /-- A token is taken. -/
  | token {state next after : State} {token : Token} {word text rest : List Char}
      (isWord : token.Word word) (ends : EndsNumeral text)
      (step : step? limit state token = some next) (later : Reads limit next text after rest) :
      Reads limit state (word ++ text) after rest

namespace Reads

variable {limit : Nat} {before after : State} {text rest : List Char}

theorem trans {between : State} {middle : List Char}
    (first : Reads limit before text between middle)
    (second : Reads limit between middle after rest) : Reads limit before text after rest := by
  induction first with
  | done => exact second
  | blank isSpace _ ih => exact .blank isSpace (ih second)
  | token isWord ends step _ ih => exact .token isWord ends step (ih second)

/-- A single token is taken. -/
theorem one {token : Token} {word : List Char} (isWord : token.Word word)
    (ends : EndsNumeral rest) (step : step? limit before token = some after) :
    Reads limit before (word ++ rest) after rest :=
  .token isWord ends step (.done after rest)

/-- A line break with its indentation is skipped. -/
theorem newline (level : Nat) (state : State) (text : List Char) :
    Reads limit state ((newline level).toList ++ text) state text := by
  have spaces (count : Nat) :
      Reads limit state (List.replicate count ' ' ++ text) state text := by
    induction count with
    | zero => exact .done state text
    | succ count ih => exact .blank rfl ih
  rw [Json.newline, String.toList_ofList]
  exact .blank rfl (spaces _)

theorem blank_eq {character : Char} (isSpace : Json.isSpace character = true) {fuel : Nat} :
    readFrom? limit fuel before (character :: text) = readFrom? limit fuel before text := by
  cases fuel with
  | zero => rfl
  | succ fuel => simp [readFrom?, isSpace]

theorem token_eq {token : Token} {word : List Char} (isWord : token.Word word)
    (ends : EndsNumeral rest) (step : step? limit before token = some after) {fuel : Nat} :
    readFrom? limit (fuel + 1) before (word ++ rest) = readFrom? limit fuel after rest := by
  rcases isWord.starts with ⟨head, tail, rfl, visible⟩
  have reads := isWord.reads rest ends
  rw [List.cons_append] at reads ⊢
  simp [readFrom?, visible, reads, step]

/-- A text that is passed over to its end gives the value that the reader ends with. -/
theorem read_eq {value : Json} (reads : Reads limit before text (.finished value) []) {fuel : Nat}
    (enough : text.length < fuel) : readFrom? limit fuel before text = some value := by
  generalize target : State.finished value = after, nothing : ([] : List Char) = rest at reads
  induction reads generalizing fuel with
  | done =>
      subst target nothing
      cases fuel with
      | zero => cases enough
      | succ fuel => rfl
  | blank isSpace _ ih =>
      rw [blank_eq isSpace]
      exact ih (Nat.lt_of_succ_lt enough) target nothing
  | token isWord ends step _ ih =>
      cases fuel with
      | zero => cases enough
      | succ fuel =>
          rw [token_eq isWord ends step]
          refine ih ?_ target nothing
          rcases isWord.starts with ⟨head, tail, rfl, _⟩
          simp at enough
          omega

end Reads

theorem endsNumeral_newline (level : Nat) (rest : List Char) :
    EndsNumeral ((newline level).toList ++ rest) := by
  rw [newline, String.toList_ofList]
  exact .cons (by decide)

/-- Elements begin on a line of their own. -/
theorem endsNumeral_elements (level : Nat) {elements : List Json} (nonempty : elements ≠ [])
    (rest : List Char) : EndsNumeral ((prettyElements level elements).toList ++ rest) := by
  match elements with
  | [] => exact absurd rfl nonempty
  | [_] | _ :: _ :: _ =>
      simp only [prettyElements, String.toList_append, List.append_assoc]
      exact endsNumeral_newline level _

/-- Entries begin on a line of their own. -/
theorem endsNumeral_entries (level : Nat) {entries : List (String × Json)}
    (nonempty : entries ≠ []) (rest : List Char) :
    EndsNumeral ((prettyEntries level entries).toList ++ rest) := by
  match entries with
  | [] => exact absurd rfl nonempty
  | [_] | _ :: _ :: _ =>
      simp only [prettyEntries, String.toList_append, List.append_assoc]
      exact endsNumeral_newline level _

/-- A state in which a value may begin that goes to the given open containers. -/
def State.Begins (limit : Nat) (state : State) (frames : List Frame) : Prop :=
  ∀ token next, begin? limit frames token = some next → step? limit state token = some next

theorem begins_value (limit : Nat) (frames : List Frame) :
    (State.value frames).Begins limit frames :=
  fun _ _ => id

/-- The first element of an array may begin where the array might also end. -/
theorem begins_firstElement (limit : Nat) (frames : List Frame) :
    (State.firstElement frames).Begins limit (.array [] :: frames) := by
  intro token next begins
  cases token with
  | closeArray => cases begins
  | _ => exact begins

/-- A state in which a key may stand, with the entries that an object has so far. -/
def State.Awaits (limit : Nat) (state : State) (entries : List (String × Json))
    (frames : List Frame) : Prop :=
  ∀ key, step? limit state (.text key) = some (.colon entries key frames)

variable {limit : Nat}

/-- A key with its colon is read where a key may stand. -/
theorem reads_key {before : State} {entries : List (String × Json)} {frames : List Frame}
    (awaits : before.Awaits limit entries frames) (key : String) (rest : List Char) :
    Reads limit before ((writeText key).toList ++ (": ".toList ++ rest))
      (.value (.object entries key :: frames)) rest := by
  have colon : Reads limit (.colon entries key frames) ([':'] ++ ' ' :: rest)
      (.value (.object entries key :: frames)) rest :=
    .token Token.word_colon (.cons (by decide)) rfl (.blank rfl (.done _ rest))
  exact .token (Token.word_text key)
    (.cons (by decide) : EndsNumeral (':' :: ' ' :: rest)) (awaits key) colon

mutual

/-- A value is read from where it may begin, and handed to the innermost open container. -/
theorem reads_prettyAt {before : State} {frames : List Frame} (begins : before.Begins limit frames)
    {rest : List Char} (ends : EndsNumeral rest) (level : Nat) :
    ∀ value : Json, value.Readable → frames.length + value.depth ≤ limit →
      Reads limit before ((prettyAt level value).toList ++ rest) (deliver value frames) rest
  | null, _, _ => .one Token.word_null ends (begins _ _ rfl)
  | bool true, _, _ => .one (Token.word_bool true) ends (begins _ _ rfl)
  | bool false, _, _ => .one (Token.word_bool false) ends (begins _ _ rfl)
  | number _, readable, _ => .one (ReadsBack.word readable) ends (begins _ _ rfl)
  | string value, _, _ => .one (Token.word_text value) ends (begins _ _ rfl)
  | array [], _, room => by
      have opens : begin? limit frames .openArray = some (.firstElement frames) := if_pos room
      rw [prettyAt]
      exact (Reads.one Token.word_openArray (.cons (by decide)) (begins _ _ opens)).trans
        (.one Token.word_closeArray ends rfl)
  | array (element :: later), readable, room => by
      rw [depth] at room
      have opens : begin? limit frames .openArray = some (.firstElement frames) :=
        if_pos (by omega)
      have elements := reads_prettyElements (begins_firstElement limit frames)
        (endsNumeral_newline level (']' :: rest)) (level + 1) (element :: later) (by simp) readable
        (by omega)
      rw [List.append_nil] at elements
      have closes : step? limit (.afterElement (element :: later).reverse frames) .closeArray =
          some (deliver (array (element :: later)) frames) := by
        rw [step?, List.reverse_reverse]
      simp only [prettyAt, String.toList_append, List.append_assoc]
      exact (Reads.one Token.word_openArray (endsNumeral_elements _ (by simp) _)
        (begins _ _ opens)).trans
        (elements.trans ((Reads.newline level _ _).trans (.one Token.word_closeArray ends closes)))
  | object [], _, room => by
      have opens : begin? limit frames .openObject = some (.firstKey frames) := if_pos room
      rw [prettyAt]
      exact (Reads.one Token.word_openObject (.cons (by decide)) (begins _ _ opens)).trans
        (.one Token.word_closeObject ends rfl)
  | object (entry :: later), readable, room => by
      rw [depth] at room
      have opens : begin? limit frames .openObject = some (.firstKey frames) :=
        if_pos (by omega)
      have awaits : (State.firstKey frames).Awaits limit [] frames := fun _ => rfl
      have entries := reads_prettyEntries awaits
        (endsNumeral_newline level ('\x7d' :: rest)) (level + 1) (entry :: later) (by simp) readable
        (by omega)
      rw [List.append_nil] at entries
      have closes : step? limit (.afterEntry (entry :: later).reverse frames) .closeObject =
          some (deliver (object (entry :: later)) frames) := by
        rw [step?, List.reverse_reverse]
      simp only [prettyAt, String.toList_append, List.append_assoc]
      exact (Reads.one Token.word_openObject (endsNumeral_entries _ (by simp) _)
        (begins _ _ opens)).trans
        (entries.trans ((Reads.newline level _ _).trans (.one Token.word_closeObject ends closes)))

/-- Elements are read one after another behind those that an array has so far. -/
theorem reads_prettyElements {before : State} {read : List Json} {frames : List Frame}
    (begins : before.Begins limit (.array read :: frames)) {rest : List Char}
    (ends : EndsNumeral rest) (level : Nat) :
    ∀ elements : List Json, elements ≠ [] → ReadableElements elements →
      frames.length + 1 + depthOfElements elements ≤ limit →
      Reads limit before ((prettyElements level elements).toList ++ rest)
        (.afterElement (elements.reverse ++ read) frames) rest
  | [], nonempty, _, _ => absurd rfl nonempty
  | [element], _, readable, room => by
      rw [depthOfElements] at room
      have value := reads_prettyAt begins ends level element readable.1
        (by rw [List.length_cons]; omega)
      simp only [prettyElements, String.toList_append, List.append_assoc]
      exact (Reads.newline level before _).trans value
  | element :: next :: later, _, readable, room => by
      rw [depthOfElements] at room
      have comma : EndsNumeral (',' :: ((prettyElements level (next :: later)).toList ++ rest)) :=
        .cons (by decide)
      have value := reads_prettyAt begins comma level element readable.1
        (by rw [List.length_cons]; omega)
      have others := reads_prettyElements (begins_value limit (.array (element :: read) :: frames))
        ends level (next :: later) (by simp) readable.2 (by omega)
      have separated : Reads limit (.afterElement (element :: read) frames) _ _ _ :=
        .one Token.word_comma (endsNumeral_elements level (List.cons_ne_nil next later) rest) rfl
      simp only [prettyElements, String.toList_append, List.append_assoc]
      rw [List.reverse_cons, List.append_assoc]
      exact (Reads.newline level before _).trans (value.trans (separated.trans others))

/-- Entries are read one after another behind those that an object has so far. -/
theorem reads_prettyEntries {before : State} {read : List (String × Json)} {frames : List Frame}
    (awaits : before.Awaits limit read frames) {rest : List Char}
    (ends : EndsNumeral rest) (level : Nat) :
    ∀ entries : List (String × Json), entries ≠ [] → ReadableEntries entries →
      frames.length + 1 + depthOfEntries entries ≤ limit →
      Reads limit before ((prettyEntries level entries).toList ++ rest)
        (.afterEntry (entries.reverse ++ read) frames) rest
  | [], nonempty, _, _ => absurd rfl nonempty
  | [(key, value)], _, readable, room => by
      rw [depthOfEntries] at room
      have content := reads_prettyAt (begins_value limit (.object read key :: frames)) ends level
        value readable.1 (by rw [List.length_cons]; omega)
      simp only [prettyEntries, String.toList_append, List.append_assoc]
      exact (Reads.newline level before _).trans ((reads_key awaits key _).trans content)
  | (key, value) :: next :: later, _, readable, room => by
      rw [depthOfEntries] at room
      have comma : EndsNumeral (',' :: ((prettyEntries level (next :: later)).toList ++ rest)) :=
        .cons (by decide)
      have content := reads_prettyAt (begins_value limit (.object read key :: frames)) comma level
        value readable.1 (by rw [List.length_cons]; omega)
      have further : (State.key ((key, value) :: read) frames).Awaits limit _ frames := fun _ => rfl
      have others := reads_prettyEntries further ends level (next :: later) (by simp) readable.2
        (by omega)
      have separated : Reads limit (.afterEntry ((key, value) :: read) frames) _ _ _ :=
        .one Token.word_comma (endsNumeral_entries level (List.cons_ne_nil next later) rest) rfl
      simp only [prettyEntries, String.toList_append, List.append_assoc]
      rw [List.reverse_cons, List.append_assoc]
      exact (Reads.newline level before _).trans
        ((reads_key awaits key _).trans (content.trans (separated.trans others)))

end

/-- A value is read back from the text that is written for it. -/
theorem read?_pretty {value : Json} (readable : value.Readable) (shallow : value.depth ≤ limit) :
    read? limit value.pretty = some value := by
  have reads := reads_prettyAt (begins_value limit []) .nil 0 value readable
    (by rwa [List.length_nil, Nat.zero_add])
  rw [List.append_nil] at reads
  exact reads.read_eq (Nat.lt_succ_self _)

end Covenant.Json
