import LetIf.Proofs.Stream

/-!
# A stream as a queue

However a stream is called, it behaves as a queue that never runs out. Only pops
move it, so it stands where the number of pops alone would bring it
(`after_eq_skip`).
-/

namespace LetIf.Stream

inductive Call where
  | peek (distance : Nat)
  | pop
  | line (row : Nat)
  deriving DecidableEq, Repr

def step (s : Stream) : Call → Stream
  | .peek _ | .line _ => s
  | .pop => s.pop

def after (s : Stream) (calls : List Call) : Stream := calls.foldl step s

/-- The tokens that the pops among the calls give, in order. -/
def popped (s : Stream) : List Call → List Token
  | [] => []
  | .pop :: calls => s.next :: s.pop.popped calls
  | .peek _ :: calls | .line _ :: calls => s.popped calls

theorem after_eq_skip (s : Stream) (calls : List Call) :
    s.after calls = s.skip (calls.count .pop) := by
  induction calls generalizing s with
  | nil => rfl
  | cons call calls ih =>
    have hcons : s.after (call :: calls) = (s.step call).after calls := rfl
    rw [hcons, ih]
    cases call with
    | pop => rw [List.count_cons_self, skip, step]
    | peek | line => rw [List.count_cons_of_ne (by simp), step]

theorem popped_eq (s : Stream) (calls : List Call) :
    s.popped calls = (List.range (calls.count .pop)).map fun i => (s.skip i).next := by
  induction calls generalizing s with
  | nil => rfl
  | cons call calls ih =>
    cases call with
    | pop =>
      rw [popped, ih, List.count_cons_self, List.range_succ_eq_map, List.map_cons, List.map_map]
      rfl
    | peek | line => rw [popped, ih, List.count_cons_of_ne (by simp)]

theorem getLast?_popped_replicate (s : Stream) (k : Nat) :
    (s.popped (List.replicate (k + 1) .pop)).getLast? = some (s.skip k).next := by
  rw [popped_eq, List.count_replicate_self, List.range_succ, List.map_append]
  simp

theorem findIdx_complete (tokens : List Token) (source : String) :
    (complete tokens).findIdx Token.isEof = (ofTokens tokens source).word.length := by
  rw [word_ofTokens, ← takeWhile_complete, List.takeWhile_eq_take_findIdx_not, List.length_take]
  simp [List.findIdx_le_length]

/-- The next token after `n` pops, also where the end token was popped. -/
theorem getElem?_ahead_min (s : Stream) (n : Nat) :
    s.ahead[min n s.word.length]? = some (s.skip n).next := by
  by_cases h : n ≤ s.word.length
  · rw [Nat.min_eq_left h]
    exact next_skip h
  · have hn : s.word.length ≤ n := by omega
    rw [Nat.min_eq_right hn]
    simp [next, ahead, List.drop_eq_nil_of_le hn]

theorem remaining_pos (s : Stream) : 0 < s.remaining := by
  unfold remaining
  omega

theorem length_tokens (s : Stream) : s.tokens.length = s.position + s.remaining := by
  rw [tokens, List.length_append, List.length_reverse, length_ahead, position]

theorem getElem?_tokens_add (s : Stream) (i : Nat) : s.tokens[s.position + i]? = s.ahead[i]? := by
  rw [tokens, position, List.getElem?_append_right (by simp), List.length_reverse,
    Nat.add_sub_cancel_left]

theorem getLast?_ahead (s : Stream) : s.ahead.getLast? = some (s.beyond.getLastD s.stop) := by
  rw [ahead, List.getLast?_append, List.getLast?_cons, Option.some_or, List.getLastD_eq_getLast?]

theorem peek?_eq_none_iff (s : Stream) (k : Nat) :
    s.peek? k = none ↔ k = 0 ∨ Text.maxWord < s.position + (k - 1) := by
  unfold peek?
  split <;> simp_all

theorem peek?_eq_getElem? {s : Stream} {k : Nat}
    (h : ¬(k = 0 ∨ Text.maxWord < s.position + (k - 1))) :
    s.peek? k = s.tokens[min (s.position + (k - 1)) (s.tokens.length - 1)]? := by
  rw [peek?, if_neg h]
  have hlen := s.length_tokens
  have hpos := s.remaining_pos
  by_cases hk : k - 1 < s.remaining
  · rw [Nat.min_eq_left (by omega), getElem?_tokens_add]
    rw [← length_ahead] at hk
    simp [hk]
  · have hlast : min (s.position + (k - 1)) (s.tokens.length - 1)
        = s.position + (s.remaining - 1) := by omega
    have hnone : s.ahead[k - 1]? = none := by
      rw [List.getElem?_eq_none_iff, length_ahead]
      omega
    rw [hlast, getElem?_tokens_add, hnone, ← length_ahead, ← List.getLast?_eq_getElem?,
      getLast?_ahead, Option.getD_none]

theorem peek?_eq_popped {s : Stream} {k : Nat}
    (h : ¬(k = 0 ∨ Text.maxWord < s.position + (k - 1))) (hk : k ≤ s.word.length + 1) :
    s.peek? k = (s.popped (List.replicate k .pop)).getLast? := by
  obtain ⟨j, rfl⟩ : ∃ j, k = j + 1 := Nat.exists_eq_succ_of_ne_zero (by omega)
  have hj : j ≤ s.word.length := by omega
  rw [getLast?_popped_replicate, peek?, if_neg h, Nat.add_sub_cancel, next_skip hj]
  rfl

/-- A stream over these tokens and this source of which a token was popped `n`
times. The place is all that has changed, and it is never past the first end
token. -/
structure AfterPops (tokens : List Token) (source : String) (n : Nat) (s : Stream) : Prop where
  tokens_eq : s.tokens = tokens
  line_eq : ∀ row, s.line row = Text.lineAt source row
  position_eq : s.position = min n (tokens.findIdx Token.isEof)
  position_lt : s.position < tokens.length
  remaining_eq : s.remaining = tokens.length - s.position

theorem afterPops_skip (tokens : List Token) (source : String) (n : Nat) :
    AfterPops (complete tokens) source n ((ofTokens tokens source).skip n) := by
  have htokens : ((ofTokens tokens source).skip n).tokens = complete tokens := by
    rw [tokens_skip, tokens_ofTokens]
  have hlen := length_tokens ((ofTokens tokens source).skip n)
  have hpos := remaining_pos ((ofTokens tokens source).skip n)
  rw [htokens] at hlen
  refine ⟨htokens, fun row => ?_, ?_, by omega, by omega⟩
  · rw [line, source_skip, source_ofTokens]
  · rw [findIdx_complete tokens source, position, taken_skip, taken_ofTokens, List.append_nil,
      List.length_reverse, List.length_take]

/-- What lookahead tells of these tokens. It is undefined at distance zero and
where the index is no word. Up to the first end token it is the last of as many
pops. Further on it is the token that stands there, or the last one, which is
the end token itself if there is only one. -/
structure Foresees (tokens : List Token) (s : Stream) : Prop where
  eq_none_iff : ∀ k, s.peek? k = none ↔ k = 0 ∨ Text.maxWord < s.position + (k - 1)
  near : ∀ k t, s.peek? k = some t → k ≤ tokens.findIdx Token.isEof - s.position + 1 →
    (s.popped (List.replicate k .pop)).getLast? = some t
  far : ∀ k t, s.peek? k = some t → tokens.findIdx Token.isEof - s.position + 1 < k →
    tokens[min (s.position + k - 1) (tokens.length - 1)]? = some t
  last : tokens.findIdx Token.isEof + 1 = tokens.length →
    ∀ k t, s.peek? k = some t → tokens.findIdx Token.isEof - s.position < k →
      tokens[tokens.findIdx Token.isEof]? = some t

theorem foresees_skip (tokens : List Token) (source : String) (n : Nat) :
    Foresees (complete tokens) ((ofTokens tokens source).skip n) := by
  have hpops := afterPops_skip tokens source n
  generalize hs : (ofTokens tokens source).skip n = s at hpops
  have hword : (complete tokens).findIdx Token.isEof - s.position = s.word.length := by
    rw [hpops.position_eq, findIdx_complete tokens source, ← hs, word_skip, List.length_drop]
    omega
  have hdefined : ∀ k t, s.peek? k = some t → ¬(k = 0 ∨ Text.maxWord < s.position + (k - 1)) := by
    intro k t ht hk
    rw [(peek?_eq_none_iff s k).2 hk] at ht
    cases ht
  have hindex : ∀ k t, s.peek? k = some t →
      (complete tokens)[min (s.position + (k - 1)) ((complete tokens).length - 1)]? = some t := by
    intro k t ht
    rw [← ht, peek?_eq_getElem? (hdefined k t ht), hpops.tokens_eq]
  refine ⟨peek?_eq_none_iff s, fun k t ht hk => ?_, fun k t ht hk => ?_, fun he k t ht hk => ?_⟩
  · rw [hword] at hk
    rw [← peek?_eq_popped (hdefined k t ht) hk, ht]
  · rw [← hindex k t ht, Nat.add_sub_assoc (by omega)]
  · have hlt := hpops.position_lt
    rw [← hindex k t ht]
    congr 1
    omega

/-- Whatever is called, pops give the tokens up to the first end token, each
once, and then the end token forever. Other calls leave no trace. The stream
stands at the index that the number of pops says, always at a token, and its
lookahead agrees with the pops to come. -/
theorem stream_is_sticky_queue (tokens : List Token) (source : String) (calls : List Call) :
    ((ofTokens tokens source).popped calls).map some
      = (List.range (calls.count .pop)).map
          (fun i => (complete tokens)[min i ((complete tokens).findIdx Token.isEof)]?) ∧
    (ofTokens tokens source).after calls
      = (ofTokens tokens source).after (calls.filter (· = .pop)) ∧
    AfterPops (complete tokens) source (calls.count .pop) ((ofTokens tokens source).after calls) ∧
    Foresees (complete tokens) ((ofTokens tokens source).after calls) := by
  simp only [after_eq_skip]
  refine ⟨?_, ?_, afterPops_skip tokens source _, foresees_skip tokens source _⟩
  · rw [popped_eq, List.map_map]
    refine List.map_congr_left fun i _ => ?_
    rw [findIdx_complete tokens source, ← ahead_ofTokens tokens source, getElem?_ahead_min]
    rfl
  · rw [List.count_filter (by simp)]

-- An end token in the middle stops pops but not lookahead.
example :
    ((ofTokens [⟨⟨.eof, ""⟩, .at ⟨1, 1⟩⟩, ⟨⟨.name, "x"⟩, .at ⟨1, 2⟩⟩] "").after
      [.pop, .peek 3, .pop]).peek? 2 = some ⟨⟨.name, "x"⟩, .at ⟨1, 2⟩⟩ := by
  decide +kernel

end LetIf.Stream
