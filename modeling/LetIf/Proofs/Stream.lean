import LetIf.Parse

/-!
# Places in a stream

What a stream holds after some tokens have been taken, and where the first end
token of a list stands.
-/

namespace LetIf.Stream

@[simp] theorem isEof_eofAt (p : Position) : (Token.eofAt p).isEof = true := rfl

theorem takeWhile_complete (tokens : List Token) :
    (complete tokens).takeWhile (!·.isEof) = tokens.takeWhile (!·.isEof) := by
  unfold complete
  split
  next h => simp [List.getLast?_eq_none_iff.1 h]
  next last _ =>
    split
    · rfl
    · rw [List.takeWhile_append]
      split
      next hl =>
        have htake := (List.takeWhile_prefix _).eq_of_length hl
        simp [htake]
      · rfl

@[simp] theorem source_ofTokens (tokens : List Token) (source : String) :
    (ofTokens tokens source).source = source := by
  unfold ofTokens
  split
  next h => exact absurd h (dropWhile_complete_ne_nil tokens)
  next h => rfl

@[simp] theorem taken_ofTokens (tokens : List Token) (source : String) :
    (ofTokens tokens source).taken = [] := by
  unfold ofTokens
  split
  next h => exact absurd h (dropWhile_complete_ne_nil tokens)
  next h => rfl

@[simp] theorem word_ofTokens (tokens : List Token) (source : String) :
    (ofTokens tokens source).word = tokens.takeWhile (!·.isEof) := by
  rw [← takeWhile_complete]
  unfold ofTokens
  split
  next h => exact absurd h (dropWhile_complete_ne_nil tokens)
  next h => rfl

@[simp] theorem ahead_ofTokens (tokens : List Token) (source : String) :
    (ofTokens tokens source).ahead = complete tokens := by
  simpa [Stream.tokens] using tokens_ofTokens tokens source

@[simp] theorem stop_pop (s : Stream) : s.pop.stop = s.stop := by
  unfold pop
  split <;> rfl

theorem taken_pop (s : Stream) : s.pop.taken = s.word.head?.toList ++ s.taken := by
  unfold pop
  split
  next h => simp [h]
  next h => simp [h]

@[simp] theorem source_skip (s : Stream) (n : Nat) : (s.skip n).source = s.source := by
  induction n generalizing s with
  | zero => rfl
  | succ n ih => rw [skip, ih, source_pop]

@[simp] theorem stop_skip (s : Stream) (n : Nat) : (s.skip n).stop = s.stop := by
  induction n generalizing s with
  | zero => rfl
  | succ n ih => rw [skip, ih, stop_pop]

@[simp] theorem word_skip (s : Stream) (n : Nat) : (s.skip n).word = s.word.drop n := by
  induction n generalizing s with
  | zero => rfl
  | succ n ih => rw [skip, ih, word_pop, List.drop_tail]

theorem taken_skip (s : Stream) (n : Nat) :
    (s.skip n).taken = (s.word.take n).reverse ++ s.taken := by
  induction n generalizing s with
  | zero => rfl
  | succ n ih =>
    rw [skip, ih, word_pop, taken_pop]
    cases s.word <;> simp

@[simp] theorem tokens_skip (s : Stream) (n : Nat) : (s.skip n).tokens = s.tokens := by
  induction n generalizing s with
  | zero => rfl
  | succ n ih => rw [skip, ih, tokens_pop]

theorem position_skip {s : Stream} {n : Nat} (h : n ≤ s.word.length) :
    (s.skip n).position = s.position + n := by
  simp [position, taken_skip, h, Nat.add_comm]

theorem getElem?_tokens_latest {s : Stream} (h : 0 < s.position) :
    s.tokens[s.position - 1]? = some s.latest := by
  obtain ⟨t, ts, ht⟩ := List.exists_cons_of_length_pos h
  simp [tokens, position, latest, ht]

theorem next_skip {s : Stream} {n : Nat} (h : n ≤ s.word.length) :
    s.ahead[n]? = some (s.skip n).next := by
  obtain ⟨u, v, huv, rfl⟩ : ∃ u v, s.word = u ++ v ∧ n = u.length :=
    ⟨s.word.take n, s.word.drop n, by simp, by simp [h]⟩
  cases v <;> simp [next, ahead, huv]

theorem latest_skip {s : Stream} {n : Nat} (h : n < s.word.length) :
    s.ahead[n]? = some (s.skip (n + 1)).latest := by
  obtain ⟨u, t, v, huv, rfl⟩ : ∃ u t v, s.word = u ++ t :: v ∧ n = u.length :=
    ⟨s.word.take n, s.word[n], s.word.drop (n + 1), by simp, by simp [Nat.le_of_lt h]⟩
  simp [latest, taken_skip, ahead, huv, List.take_length_add_append]

theorem run_eq_ok_iff {α : Type} {s : Stream} {rule : List Terminal → Reading α} {a : α} :
    (s.run rule).result = .ok a ↔ (rule s.terminals).result = .ok a := by
  cases h : (rule s.terminals).result <;> simp [run, h]

theorem stream_run {α : Type} (s : Stream) (rule : List Terminal → Reading α) :
    (s.run rule).stream = s.skip (s.word.length - (rule s.terminals).rest.length) := by
  cases h : (rule s.terminals).result <;> simp [run, h]

theorem terminals_ofTokens (tokens : List Token) (source : String) :
    (ofTokens tokens source).terminals
      = (tokens.takeWhile (!·.isEof)).map Token.toTerminal := by
  rw [terminals, word_ofTokens]

end LetIf.Stream
