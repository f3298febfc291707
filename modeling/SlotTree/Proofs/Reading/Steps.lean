import SlotTree.Reading.Script

/-!
# Single steps of a reader

What the readers do one step at a time: how a cursor stands after some tokens, and what
it means for a sequence of readers to succeed.  Everything above this module speaks of a
reader in one of two ways.

* *Forwards*, to show that something is read: the tokens ahead are known, and the
  equations `…_run` compute the outcome.
* *Backwards*, to show what was read: the outcome is known to be a success, and the
  equivalences `…_eq_ok_iff` take the success apart.

A reader moves its cursor only by `Cursor.advance`, so where it stops is known from the
number of tokens it took: `Cursor.skip`.  `Cursor.Passes c ts c'` says that the tokens
`ts` stand directly ahead of `c`, and that `c'` is `c` moved past them.
-/

namespace SlotTree

namespace Cursor

/-- The cursor moved past so many tokens. -/
def skip (c : Cursor) : (count : Nat) → Cursor
  | 0 => c
  | count + 1 => c.advance.skip count

@[simp] theorem skip_zero (c : Cursor) : c.skip 0 = c := rfl

@[simp] theorem skip_succ (c : Cursor) (n : Nat) : c.skip (n + 1) = c.advance.skip n := rfl

theorem skip_skip (c : Cursor) (m n : Nat) : (c.skip m).skip n = c.skip (m + n) := by
  induction m generalizing c with
  | zero => simp
  | succ m ih => rw [skip_succ, ih, Nat.add_right_comm, skip_succ]

theorem advance_skip (c : Cursor) (n : Nat) : (c.skip n).advance = c.skip (n + 1) := by
  rw [← skip_skip c n 1]
  rfl

@[simp] theorem ahead_advance (c : Cursor) : c.advance.ahead = c.ahead.drop 1 := by
  unfold advance
  split <;> simp_all

@[simp] theorem closing_advance (c : Cursor) : c.advance.closing = c.closing := by
  unfold advance
  split <;> rfl

@[simp] theorem ahead_skip (c : Cursor) (n : Nat) : (c.skip n).ahead = c.ahead.drop n := by
  induction n generalizing c with
  | zero => simp
  | succ n ih => rw [skip_succ, ih, ahead_advance, List.drop_drop, Nat.add_comm]

@[simp] theorem closing_skip (c : Cursor) (n : Nat) : (c.skip n).closing = c.closing := by
  induction n generalizing c with
  | zero => rfl
  | succ n ih => rw [skip_succ, ih, closing_advance]

/-- The current token is the first one ahead. -/
theorem current_of_ahead {c : Cursor} {t : Token} {ts : List Token} (h : c.ahead = t :: ts) :
    c.current = t := by
  rw [current, h]
  rfl

/-- The kind of the cursor is that of the first token ahead. -/
theorem kind_of_ahead {c : Cursor} {t : Token} {ts : List Token} (h : c.ahead = t :: ts) :
    c.kind = t.kind := by
  rw [kind, current_of_ahead h]

/-- With nothing ahead the current token is the closing one. -/
theorem kind_of_ahead_nil {c : Cursor} (h : c.ahead = []) : c.kind = .eof := by
  rw [kind, current, h]
  rfl

/-- The kind of the token after the current one. -/
theorem peek_one_of_ahead {c : Cursor} {t u : Token} {ts : List Token}
    (h : c.ahead = t :: u :: ts) : c.peek 1 = u.kind := by
  simp [peek, h]

/-- A token that is not the end of the list stands ahead of the cursor. -/
theorem exists_ahead_of_kind_ne_eof {c : Cursor} (h : c.kind ≠ .eof) :
    ∃ t ts, c.ahead = t :: ts ∧ t.kind = c.kind := by
  cases hc : c.ahead with
  | nil => exact absurd (kind_of_ahead_nil hc) h
  | cons t ts => exact ⟨t, ts, rfl, (kind_of_ahead hc).symm⟩

/-- The end of the token before is that of the last token passed over. -/
theorem previousEnd_skip {c : Cursor} {ts rest : List Token} (hne : ts ≠ [])
    (h : c.ahead = ts ++ rest) :
    (c.skip ts.length).previousEnd = (ts.getLast hne).span.stop := by
  induction ts generalizing c with
  | nil => exact absurd rfl hne
  | cons t ts ih =>
    have hadvance : c.advance.ahead = ts ++ rest := by rw [ahead_advance, h]; rfl
    cases ts with
    | nil =>
      rw [List.length_singleton, skip_succ, skip_zero]
      simp only [advance, h, List.singleton_append, List.getLast_singleton]
    | cons u us =>
      rw [List.length_cons, skip_succ, ih (List.cons_ne_nil _ _) hadvance]
      rfl

/-- The cursor `c'` is the cursor `c` moved past the tokens `ts`, which stand directly
ahead of it. -/
structure Passes (c : Cursor) (ts : List Token) (c' : Cursor) : Prop where
  ahead : c.ahead = ts ++ c'.ahead
  stands : c' = c.skip ts.length

namespace Passes

theorem refl (c : Cursor) : c.Passes [] c := ⟨rfl, rfl⟩

/-- Passing tokens that are known to stand ahead. -/
theorem of_ahead {c : Cursor} {ts rest : List Token} (h : c.ahead = ts ++ rest) :
    c.Passes ts (c.skip ts.length) := by
  refine ⟨?_, rfl⟩
  rw [ahead_skip, h, List.drop_left]

theorem single {c : Cursor} {t : Token} {ts : List Token} (h : c.ahead = t :: ts) :
    c.Passes [t] c.advance := by
  have hsplit : c.ahead = [t] ++ ts := h
  exact of_ahead hsplit

/-- Passing one stretch and then another is passing both. -/
theorem trans {c c₁ c₂ : Cursor} {ts us : List Token} (h : c.Passes ts c₁)
    (h' : c₁.Passes us c₂) : c.Passes (ts ++ us) c₂ := by
  refine ⟨?_, ?_⟩
  · rw [h.ahead, h'.ahead, List.append_assoc]
  · rw [h'.stands, h.stands, skip_skip, List.length_append]

/-- Passing one token and then a stretch. -/
theorem cons {c c₁ : Cursor} {t : Token} {rest us : List Token} (h : c.ahead = t :: rest)
    (h' : c.advance.Passes us c₁) : c.Passes (t :: us) c₁ := (single h).trans h'

end Passes
end Cursor

namespace Parse

variable {α β : Type}

/-- The outcome of a reader is a success with the given answer and cursor. -/
theorem bind_eq_ok_iff {p : Parse α} {f : α → Parse β} {c c' : Cursor} {b : β} :
    (p >>= f) c = (.ok b, c') ↔
      ∃ a c₁, p c = (.ok a, c₁) ∧ f a c₁ = (.ok b, c') := by
  rw [bind_run]
  constructor
  · intro h
    split at h
    · next a c₁ hp => exact ⟨a, c₁, hp, h⟩
    · cases h
  · rintro ⟨a, c₁, hp, hf⟩
    rw [hp]
    exact hf

theorem bind_run_of_ok {p : Parse α} {f : α → Parse β} {c c₁ : Cursor} {a : α}
    (h : p c = (.ok a, c₁)) : (p >>= f) c = f a c₁ := by
  rw [bind_run, h]

theorem bind_run_of_error {p : Parse α} {f : α → Parse β} {c c₁ : Cursor} {fault : Fault}
    (h : p c = (.error fault, c₁)) : (p >>= f) c = (.error fault, c₁) := by
  rw [bind_run, h]

@[simp] theorem pure_eq_ok_iff {a b : α} {c c' : Cursor} :
    (pure a : Parse α) c = (.ok b, c') ↔ a = b ∧ c = c' := by
  simp [pure_run]

@[simp] theorem look_bind_run (f : Cursor → α) (g : α → Parse β) (c : Cursor) :
    (look f >>= g) c = g (f c) c := rfl

@[simp] theorem advance_bind_run (g : Token → Parse β) (c : Cursor) :
    (advance >>= g) c = g c.current c.advance := rfl

@[simp] theorem fail_ne_ok {fault : Fault} {c c' : Cursor} {a : α} :
    (fail fault : Parse α) c ≠ (.ok a, c') := by
  simp [fail]

@[simp] theorem failHere_ne_ok {cause : Cause} {c c' : Cursor} {a : α} :
    (failHere cause : Parse α) c ≠ (.ok a, c') := by
  simp [failHere]

@[simp] theorem unexpected_ne_ok {c c' : Cursor} {a : α} :
    (unexpected : Parse α) c ≠ (.ok a, c') := by
  simp [unexpected]

theorem lift_eq_ok_iff {outcome : Except Fault α} {c c' : Cursor} {a : α} :
    lift outcome c = (.ok a, c') ↔ outcome = .ok a ∧ c = c' := by
  cases outcome with
  | ok b => simp [lift]
  | error fault => simp [lift]

/-- A token of the expected kind is answered and passed. -/
theorem expect_run {c : Cursor} {t : Token} {ts : List Token} {kind : TokenKind}
    (h : c.ahead = t :: ts) (hk : t.kind = kind) : expect kind c = (.ok t, c.advance) := by
  have hkind : c.kind = kind := by rw [Cursor.kind_of_ahead h, hk]
  simp [expect, expectOr, hkind, advance, Cursor.current_of_ahead h]

/-- Success of `expect` means that a token of the kind was passed. -/
theorem expect_eq_ok {c c' : Cursor} {t : Token} {kind : TokenKind} (hne : kind ≠ .eof)
    (h : expect kind c = (.ok t, c')) : t.kind = kind ∧ c.Passes [t] c' := by
  simp only [expect, expectOr] at h
  split at h
  · next hk =>
    have hkind : c.kind = kind := by simpa using hk
    obtain ⟨u, us, hu, huk⟩ := Cursor.exists_ahead_of_kind_ne_eof (c := c) (by rw [hkind]; exact hne)
    simp only [advance, Prod.mk.injEq, Except.ok.injEq] at h
    obtain ⟨h1, rfl⟩ := h
    have htu : u = t := by rw [← h1, Cursor.current_of_ahead hu]
    subst htu
    exact ⟨by rw [huk, hkind], Cursor.Passes.single hu⟩
  · simp at h

/-- Moving past a list of tokens is moving past their number. -/
theorem foldl_advance (ts : List Token) (c : Cursor) :
    ts.foldl (fun c _ => c.advance) c = c.skip ts.length := by
  induction ts generalizing c with
  | nil => rfl
  | cons t ts ih => rw [List.foldl_cons, ih, List.length_cons, Cursor.skip_succ]

/-- The tokens of the given kinds are taken from the front. -/
theorem takeWhile_run (p : TokenKind → Bool) (c : Cursor) :
    takeWhile p c =
      (.ok (c.ahead.takeWhile fun t => p t.kind),
        c.skip (c.ahead.takeWhile fun t => p t.kind).length) := by
  simp [takeWhile, foldl_advance]

end Parse
end SlotTree
