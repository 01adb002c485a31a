import LetIf.Diagnostic
import LetIf.Text.Cursor

/-!
# Streams of tokens

Tokens are taken from the front up to the first end token, which stays in front
however often it is taken. Tokens may stand after it; they are never taken, but
lookahead sees them. The number of tokens taken and the lookahead distance are
64-bit words.
-/

namespace LetIf

structure Stream where
  source : String
  /-- The tokens already taken, the latest first. -/
  taken : List Token
  /-- The tokens to take before the first end token. -/
  word : List Token
  /-- The first end token. -/
  stop : Token
  beyond : List Token
  kind_ne_eof : ∀ t ∈ word, t.kind ≠ .eof
  kind_stop : stop.kind = .eof

namespace Stream

/-- The tokens with an end token after them, unless the last one is an end
token already. -/
def complete (tokens : List Token) : List Token :=
  match tokens.getLast? with
  | none => [.eofAt .origin]
  | some last => if last.isEof then tokens else tokens ++ [.eofAt last.span.stop]

theorem exists_eof_complete (tokens : List Token) : ∃ t ∈ complete tokens, t.isEof := by
  unfold complete
  split
  · exact ⟨_, List.mem_singleton.2 rfl, rfl⟩
  next last h =>
    split
    next he => exact ⟨last, List.mem_of_getLast? h, he⟩
    · exact ⟨_, List.mem_append_right _ (List.mem_singleton.2 rfl), rfl⟩

theorem dropWhile_complete_ne_nil (tokens : List Token) :
    (complete tokens).dropWhile (!·.isEof) ≠ [] := by
  obtain ⟨t, ht, he⟩ := exists_eof_complete tokens
  intro h
  have split := (complete tokens).takeWhile_append_dropWhile (p := (!·.isEof))
  rw [h, List.append_nil] at split
  rw [← split] at ht
  simpa [he] using List.all_eq_true.1 List.all_takeWhile t ht

def ofTokens (tokens : List Token) (source : String) : Stream :=
  match h : (complete tokens).dropWhile (!·.isEof) with
  | [] => absurd h (dropWhile_complete_ne_nil tokens)
  | stop :: beyond =>
    { source, stop, beyond
      taken := []
      word := (complete tokens).takeWhile (!·.isEof)
      kind_ne_eof := fun t ht => by
        have := List.all_eq_true.1 List.all_takeWhile t ht
        simpa [Token.isEof] using this
      kind_stop := by
        have hs := List.head?_dropWhile_not (!·.isEof) (complete tokens)
        rw [h] at hs
        simpa [Token.isEof] using hs }

def position (s : Stream) : Nat := s.taken.length

def ahead (s : Stream) : List Token := s.word ++ s.stop :: s.beyond

def tokens (s : Stream) : List Token := s.taken.reverse ++ s.ahead

/-- The number of tokens left, the last one included. -/
def remaining (s : Stream) : Nat := s.word.length + 1 + s.beyond.length

def next (s : Stream) : Token := s.word.headD s.stop

/-- The token taken last, or the next one if none was taken. -/
def latest (s : Stream) : Token := s.taken.headD s.next

/-- The token a number of places ahead, counted from one. Past the last token
it is the last token. The distance must be positive, and the index it leads to
must be a word. -/
def peek? (s : Stream) (k : Nat) : Option Token :=
  if k = 0 ∨ Text.maxWord < s.position + (k - 1) then none
  else some (s.ahead[k - 1]?.getD (s.beyond.getLastD s.stop))

theorem tokens_ofTokens (tokens : List Token) (source : String) :
    (ofTokens tokens source).tokens = complete tokens := by
  unfold ofTokens
  split
  next h => exact absurd h (dropWhile_complete_ne_nil tokens)
  next h => simp [Stream.tokens, ahead, ← h, List.takeWhile_append_dropWhile]

theorem length_ahead (s : Stream) : s.ahead.length = s.remaining := by
  simp [ahead, remaining, Nat.add_assoc, Nat.add_comm 1]

theorem head?_ahead (s : Stream) : s.ahead.head? = some s.next := by
  simp only [ahead, next]
  cases s.word <;> rfl

/-- Takes the next token. The end token is not taken. -/
def pop (s : Stream) : Stream :=
  match h : s.word with
  | [] => s
  | t :: word =>
    { s with
      taken := t :: s.taken
      word
      kind_ne_eof := fun u hu => s.kind_ne_eof u (h ▸ List.mem_cons_of_mem t hu) }

@[simp] theorem source_pop (s : Stream) : s.pop.source = s.source := by
  unfold pop
  split <;> rfl

@[simp] theorem tokens_pop (s : Stream) : s.pop.tokens = s.tokens := by
  unfold pop
  split
  · rfl
  next h => simp [tokens, ahead, h]

@[simp] theorem word_pop (s : Stream) : s.pop.word = s.word.tail := by
  unfold pop
  split
  next h => simp [h]
  next h => simp [h]

theorem length_pop_le (s : Stream) : s.pop.word.length ≤ s.word.length := by
  rw [word_pop, List.length_tail]
  exact Nat.sub_le _ _

def skip : Nat → Stream → Stream
  | 0, s => s
  | n + 1, s => skip n s.pop

def line (s : Stream) (row : Nat) : String := Text.lineAt s.source row

def diagnosticAt (s : Stream) (cause : Cause) (t : Token) : Diagnostic :=
  .locate s.source cause t.span.start

def found (s : Stream) (expected : Expected) : Option Token × Stream :=
  if expected.admits s.next.toTerminal then (some s.next, s.pop) else (none, s)

def expect (s : Stream) (expected : Expected) : Except Diagnostic Token × Stream :=
  match s.found expected with
  | (some t, rest) => (.ok t, rest)
  | (none, rest) =>
    (.error (s.diagnosticAt (.unexpectedToken expected s.next.describe) s.next), rest)

theorem found_eq_some {s : Stream} {expected : Expected} (h : expected.admits s.next.toTerminal) :
    s.found expected = (some s.next, s.pop) := if_pos h

theorem found_eq_none {s : Stream} {expected : Expected}
    (h : ¬expected.admits s.next.toTerminal) : s.found expected = (none, s) := if_neg h

theorem expect_eq_ok {s : Stream} {expected : Expected} (h : expected.admits s.next.toTerminal) :
    s.expect expected = (.ok s.next, s.pop) := by
  simp [expect, found_eq_some h]

theorem expect_eq_error {s : Stream} {expected : Expected}
    (h : ¬expected.admits s.next.toTerminal) :
    s.expect expected =
      (.error (s.diagnosticAt (.unexpectedToken expected s.next.describe) s.next), s) := by
  simp [expect, found_eq_none h]

theorem snd_expect (s : Stream) (expected : Expected) :
    (s.expect expected).2 = (s.found expected).2 := by
  unfold expect
  split <;> simp [*]

theorem length_found_le (s : Stream) (expected : Expected) :
    (s.found expected).2.word.length ≤ s.word.length := by
  unfold found
  split
  · exact s.length_pop_le
  · exact Nat.le_refl _

theorem length_found_lt {s rest : Stream} {expected : Expected} {t : Token}
    (h : s.found expected = (some t, rest)) (ht : ¬expected.admits s.stop.toTerminal) :
    rest.word.length < s.word.length := by
  unfold found at h
  split at h
  next hadmits =>
    cases h
    cases hw : s.word with
    | nil => simp [next, hw, ht] at hadmits
    | cons t word => simp [hw]
  · cases h

end Stream

end LetIf
