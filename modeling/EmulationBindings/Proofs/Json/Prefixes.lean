import EmulationBindings.Proofs.Json.LongIntegers
import EmulationBindings.Proofs.Json.RoundTrip
import EmulationBindings.Proofs.Reading
import EmulationBindings.Proofs.Text.Cut

/-!
# Text after a document

A document that is an object ends with a brace, and no number or word goes on over a brace.  So the
decoder gets over the object in the same way whatever is written after it, and then takes only
blanks.
-/

namespace EmulationBindings.Json

/-! ## The parts of a number -/

def signed (t : Text) : Span :=
  match t with
  | '-' :: u => (['-'], u)
  | _ => ([], t)

def powerSigned (t : Text) : Span :=
  match t with
  | '-' :: u => (['-'], u)
  | '+' :: u => (['+'], u)
  | _ => ([], t)

def pointed (t : Text) : Text × Span :=
  match fraction? t with
  | some (ds, rest) => (['.'], ds, rest)
  | none => ([], [], t)

def powered (t : Text) : Text × Int × Text :=
  match exponent? t with
  | some found => found
  | none => ([], 0, t)

/-- The value of a number with these parts. -/
def ofParts (sign whole point part mark : Text) (power : Int) : Scalar :=
  if point = [] ∧ mark = [] then .int (sign = ['-']) whole
  else
    .decimal {
      negative := sign = ['-']
      coefficient := Text.digitsValue (whole ++ part)
      exponent := power - part.length }

theorem exponent?_cons (e : Char) (t : Text) :
    exponent? (e :: t) =
      if e = 'e' ∨ e = 'E' then
        match digits (powerSigned t).2 with
        | ([], _) => none
        | (ds, rest) =>
          let value : Int := Text.digitsValue ds
          some (e :: (powerSigned t).1 ++ ds,
            if (powerSigned t).1 = ['-'] then -value else value, rest)
      else none :=
  rfl

theorem number?_eq_bind (t : Text) :
    number? t = (wholePart? (signed t).2).bind fun (whole, rest) =>
      let (point, part, rest) := pointed rest
      let (mark, power, rest) := powered rest
      some (ofParts (signed t).1 whole point part mark power,
        ((signed t).1 ++ whole ++ point ++ part ++ mark).length, rest) :=
  rfl

/-! ## Numbers and words in front of a brace -/

section

variable (t more : Text)

theorem digits_append_brace :
    digits (t ++ '\x7d' :: more) = Prod.map id (· ++ '\x7d' :: more) (digits t) := by
  induction t with
  | nil => rfl
  | cons c t ih =>
      by_cases hc : c.isDigit
      · simpa [digits, hc] using ih
      · simp [digits, hc]

theorem wholePart?_append_brace :
    wholePart? (t ++ '\x7d' :: more) =
      (wholePart? t).map (Prod.map id (· ++ '\x7d' :: more)) := by
  have hspan := digits_append_brace t more
  cases t with
  | nil => rfl
  | cons c t =>
      by_cases hc : c = '0'
      · subst hc
        rfl
      · rw [List.cons_append] at hspan ⊢
        simp only [wholePart?, List.cons.injEq, hc, false_and, imp_self, implies_true, hspan]
        obtain ⟨ds, rest⟩ := digits (c :: t)
        cases ds <;> rfl

theorem fraction?_append_brace :
    fraction? (t ++ '\x7d' :: more) =
      (fraction? t).map (Prod.map id (· ++ '\x7d' :: more)) := by
  cases t with
  | nil => rfl
  | cons c t =>
      by_cases hc : c = '.'
      · subst hc
        simp only [List.cons_append, fraction?, digits_append_brace]
        obtain ⟨ds, rest⟩ := digits t
        cases ds <;> rfl
      · simp [fraction?, hc]

theorem powerSigned_append_brace :
    powerSigned (t ++ '\x7d' :: more) = Prod.map id (· ++ '\x7d' :: more) (powerSigned t) := by
  cases t with
  | nil => rfl
  | cons c t =>
      by_cases hminus : c = '-'
      · subst hminus
        rfl
      · by_cases hplus : c = '+'
        · subst hplus
          rfl
        · simp [powerSigned, hminus, hplus]

theorem exponent?_append_brace :
    exponent? (t ++ '\x7d' :: more) =
      (exponent? t).map (Prod.map id (Prod.map id (· ++ '\x7d' :: more))) := by
  cases t with
  | nil => rfl
  | cons e t =>
      rw [List.cons_append, exponent?_cons, exponent?_cons, powerSigned_append_brace,
        Prod.map_snd, digits_append_brace]
      split
      · obtain ⟨ds, rest⟩ := digits (powerSigned t).2
        cases ds <;> rfl
      · rfl

theorem signed_append_brace :
    signed (t ++ '\x7d' :: more) = Prod.map id (· ++ '\x7d' :: more) (signed t) := by
  cases t with
  | nil => rfl
  | cons c t =>
      by_cases hc : c = '-'
      · subst hc
        rfl
      · simp [signed, hc]

theorem pointed_append_brace :
    pointed (t ++ '\x7d' :: more) =
      Prod.map id (Prod.map id (· ++ '\x7d' :: more)) (pointed t) := by
  unfold pointed
  rw [fraction?_append_brace]
  cases fraction? t <;> rfl

theorem powered_append_brace :
    powered (t ++ '\x7d' :: more) =
      Prod.map id (Prod.map id (· ++ '\x7d' :: more)) (powered t) := by
  unfold powered
  rw [exponent?_append_brace]
  cases exponent? t <;> rfl

theorem number?_append_brace :
    number? (t ++ '\x7d' :: more) =
      (number? t).map (Prod.map id (Prod.map id (· ++ '\x7d' :: more))) := by
  simp only [number?_eq_bind, signed_append_brace, Prod.map_fst, Prod.map_snd, id,
    wholePart?_append_brace]
  cases wholePart? (signed t).2 with
  | none => rfl
  | some span => simp [pointed_append_brace, powered_append_brace]

theorem word?_append_brace :
    word? (t ++ '\x7d' :: more) =
      (word? t).map (Prod.map id (Prod.map id (· ++ '\x7d' :: more))) := by
  have hwords : ∀ w ∈ words, '\x7d' ∉ w.1 := by simp [words]
  unfold word?
  revert hwords
  induction words with
  | nil => exact fun _ => rfl
  | cons w rest ih =>
      intro hwords
      rw [List.forall_mem_cons] at hwords
      simp only [List.findSome?_cons, Text.after?_append_cons hwords.1, ih hwords.2]
      cases Text.after? w.1 t <;> rfl

theorem read_append_brace :
    ((word? (t ++ '\x7d' :: more)).orElse fun _ => number? (t ++ '\x7d' :: more)) =
      ((word? t).orElse fun _ => number? t).map
        (Prod.map id (Prod.map id (· ++ '\x7d' :: more))) := by
  rw [word?_append_brace, number?_append_brace]
  cases word? t <;> rfl

end

/-! ## Tokens in front of a brace -/

theorem stringUnits_append {opening pos after : Nat} {t rest : Text} {units : List Nat}
    (hunits : stringUnits opening pos t = .ok (units, after, rest)) (opening' pos' : Nat)
    (more : Text) :
    ∃ after', stringUnits opening' pos' (t ++ more) = .ok (units, after', rest ++ more) := by
  fun_induction stringUnits opening pos t generalizing units pos' with
  | case2 pos rest' =>
      obtain ⟨rfl, -, rfl⟩ : [] = units ∧ _ ∧ rest' = rest := by simpa using hunits
      exact ⟨pos' + 1, by simp [stringUnits]⟩
  | case4 pos a b c d next rest' n hunit ih =>
      obtain ⟨ns, rfl, hmore⟩ := exists_of_map_units hunits
      obtain ⟨after', hrest⟩ := ih hmore (pos' + 6)
      rw [List.cons_append] at hrest
      exact ⟨after', by simp [stringUnits, hunit, hrest, Except.map]⟩
  | case7 pos e rest' _ _ c hescape ih =>
      obtain ⟨ns, rfl, hmore⟩ := exists_of_map_units hunits
      obtain ⟨after', hrest⟩ := ih hmore (pos' + 2)
      refine ⟨after', ?_⟩
      rw [List.cons_append, List.cons_append, stringUnits_escape _ _ hescape, hrest]
      rfl
  | case10 pos c rest' hquote _ _ hescape hend hlow ih =>
      obtain ⟨ns, rfl, hmore⟩ := exists_of_map_units hunits
      obtain ⟨after', hrest⟩ := ih hmore (pos' + 1)
      have hbackslash : c ≠ '\\' := by
        intro hc
        cases rest' with
        | nil => exact hend hc rfl
        | cons e rest'' => exact hescape e rest'' hc rfl
      refine ⟨after', ?_⟩
      rw [List.cons_append, stringUnits_plain _ _ hquote hbackslash (Nat.le_of_not_lt hlow), hrest]
      rfl
  | _ => simp at hunits

/-- A token with a brace somewhere behind it is the same token when the text goes on. -/
theorem begins_append_of_token {pos after : Nat} {c : Char} {t rest : Text} {tok : Token}
    (hspace : isSpace c = false) (htoken : token pos c t = (tok, after, rest))
    (hbroken : ∀ offset problem, tok ≠ .broken offset problem) (hbrace : '\x7d' ∈ rest)
    (more : Text) : Begins (c :: t ++ more) tok (rest ++ more) := by
  have hrest : rest <:+ t := (suffix_of_token htoken).1
  have hsuffix : rest ++ more <:+ t ++ more := List.suffix_append_self_iff.mpr hrest
  unfold token at htoken
  split at htoken
  · cases htoken
    exact begins_openArray _
  · cases htoken
    exact begins_closeArray _
  · cases htoken
    exact begins_openObject _
  · cases htoken
    exact begins_closeObject _
  · cases htoken
    exact begins_colon _
  · cases htoken
    exact begins_comma _
  · split at htoken
    · next units _ _ hunits =>
      cases htoken
      refine ⟨'"', t ++ more, rfl, rfl, hsuffix, fun pos' => ?_⟩
      obtain ⟨after', hunits'⟩ := stringUnits_append hunits pos' (pos' + 1) more
      exact ⟨after', by simp only [token, hunits']⟩
    · cases htoken
      exact absurd rfl (hbroken _ _)
  · next hopenArray hcloseArray hopenObject hcloseObject hcolon hcomma hquote =>
    split at htoken
    · next value width _ hread =>
      cases htoken
      have hc : c ∉ punctuation := by
        simp only [punctuation, List.mem_cons, List.not_mem_nil, or_false, not_or]
        exact ⟨hopenArray, hcloseArray, hopenObject, hcloseObject, hcolon, hcomma, hquote⟩
      obtain ⟨u, w, rfl⟩ := List.append_of_mem (hrest.subset hbrace)
      rw [← List.cons_append, read_append_brace, Option.map_eq_some_iff] at hread
      obtain ⟨⟨value, width, rest⟩, hread, hsame⟩ := hread
      cases hsame
      have hread' : ((word? (c :: u ++ '\x7d' :: (w ++ more))).orElse
          fun _ => number? (c :: u ++ '\x7d' :: (w ++ more))) =
          some (value, width, rest ++ '\x7d' :: (w ++ more)) := by
        rw [read_append_brace, hread]
        rfl
      simp only [List.append_assoc, List.cons_append] at hsuffix hread' ⊢
      exact begins_of_read hc hspace hsuffix hread'
    · cases htoken
      exact absurd rfl (hbroken _ _)

/-! ## The machine up to the end of an object -/

theorem complete_eq_finished_iff {v w : Json} {stack : List Frame} :
    complete v stack = .finished w ↔ stack = [] ∧ v = w := by
  cases stack with
  | nil => simp [complete]
  | cons frame rest => cases frame <;> simp [complete]

theorem value_ne_object (value : Scalar) (ms : Members) : value.value ≠ .ok (.object ms) := by
  cases value with
  | int negative ds =>
      rw [Scalar.value]
      split <;> simp
  | decimal d =>
      rw [Scalar.value]
      split <;> simp
  | _ => simp [Scalar.value]

theorem takeValue_ne_finished (stack : List Frame) (pos : Nat) (tok : Token) (ms : Members) :
    takeValue stack pos tok ≠ .ok (.finished (.object ms)) := by
  cases tok with
  | scalar value =>
      cases hvalue : value.value with
      | error h => simp [takeValue, hvalue, Except.map]
      | ok v =>
          simp only [takeValue, hvalue, Except.map, ne_eq, Except.ok.injEq,
            complete_eq_finished_iff, not_and]
          rintro - rfl
          exact value_ne_object value ms hvalue
  | _ => simp [takeValue]

/-- Only a closing brace completes an object. -/
theorem eq_closeObject_of_step {s : State} (hs : ∀ v, s ≠ .finished v) {pos : Nat} {tok : Token}
    {ms : Members} (hstep : step s (pos, tok) = .ok (.finished (.object ms))) :
    tok = .closeObject := by
  have htake (stack : List Frame) : takeValue stack pos tok ≠ .ok (.finished (.object ms)) :=
    takeValue_ne_finished stack pos tok ms
  cases s with
  | finished v => exact absurd rfl (hs v)
  | value stack => exact absurd hstep (htake stack)
  | firstItem stack =>
      cases tok with
      | closeArray => simp [step, complete_eq_finished_iff] at hstep
      | _ => exact absurd hstep (htake (.array [] :: stack))
  | firstName stack =>
      cases tok with
      | closeObject => rfl
      | scalar value => cases value <;> simp [step, takeName] at hstep
      | _ => simp [step, takeName] at hstep
  | name members stack =>
      cases tok with
      | scalar value => cases value <;> simp [step, takeName] at hstep
      | _ => simp [step, takeName] at hstep
  | colon members name stack => cases tok <;> simp [step] at hstep
  | afterItem items stack => cases tok <;> simp [step, complete_eq_finished_iff] at hstep
  | afterMember members stack => cases tok <;> simp [step] at hstep ⊢

theorem eq_of_token_closeObject {pos after : Nat} {c : Char} {t rest : Text}
    (htoken : token pos c t = (.closeObject, after, rest)) : c = '\x7d' ∧ rest = t := by
  unfold token at htoken
  split at htoken
  case h_4 => exact ⟨rfl, (Prod.mk.inj (Prod.mk.inj htoken).2).2.symm⟩
  case h_7 => split at htoken <;> simp at htoken
  case h_8 => split at htoken <;> simp at htoken
  all_goals simp at htoken

theorem token_ne_endOfText (pos : Nat) (c : Char) (t : Text) (after : Nat) (rest : Text) :
    token pos c t ≠ (.endOfText, after, rest) := by
  unfold token
  split
  case h_7 => split <;> simp
  case h_8 => split <;> simp
  all_goals simp

/-- Where a token stands makes a difference only for the message of an error. -/
theorem step_of_step {s s' : State} {pos : Nat} {tok : Token} (hstep : step s (pos, tok) = .ok s')
    (pos' : Nat) : step s (pos', tok) = .ok s' := by
  have htake {stack : List Frame} (h : takeValue stack pos tok = .ok s') :
      takeValue stack pos' tok = .ok s' := by
    cases tok <;> simp_all [takeValue]
  have hname {members : Members} {stack : List Frame}
      (h : takeName members stack pos tok = .ok s') :
      takeName members stack pos' tok = .ok s' := by
    cases tok with
    | scalar value => cases value <;> simp_all [takeName]
    | _ => simp_all [takeName]
  cases s with
  | value stack => exact htake hstep
  | firstItem stack =>
      by_cases hclose : tok = .closeArray
      · subst hclose
        exact hstep
      · rw [step] at hstep ⊢
        exact htake hstep
        all_goals exact hclose
  | firstName stack =>
      by_cases hclose : tok = .closeObject
      · subst hclose
        exact hstep
      · rw [step] at hstep ⊢
        exact hname hstep
        all_goals exact hclose
  | name members stack => exact hname hstep
  | _ => cases tok <;> simp_all [step]

/-! ## Documents -/

section

variable {s : State} {v w : Json} {fuel pos : Nat} {c : Char} {t : Text} {ms : Members}

theorem exists_token_of_run (hc : isSpace c = false)
    (hrun : run s (tokensFrom (fuel + 1) pos (c :: t)) = .ok v) :
    ∃ tok after rest s', token pos c t = (tok, after, rest) ∧ step s (pos, tok) = .ok s' ∧
      run s' (tokensFrom fuel after rest) = .ok v := by
  rw [tokensFrom, hc] at hrun
  simp only [Bool.false_eq_true, if_false] at hrun
  split at hrun
  · next offset problem _ _ _ =>
    rw [run] at hrun
    obtain ⟨s', hstep, -⟩ := exists_of_bind_eq_ok hrun
    exact absurd hstep (step_broken s pos offset problem)
  · next tok after rest _ htoken =>
    rw [run] at hrun
    obtain ⟨s', hstep, hrest⟩ := exists_of_bind_eq_ok hrun
    exact ⟨tok, after, rest, s', htoken, hstep, hrest⟩

/-- Only a finished machine takes the end of the text. -/
theorem eq_finished_of_run_nil (hrun : run s (tokensFrom (fuel + 1) pos []) = .ok v) :
    s = .finished v := by
  rw [tokensFrom, run] at hrun
  obtain ⟨s', hstep, hrest⟩ := exists_of_bind_eq_ok hrun
  cases s with
  | finished w =>
      obtain rfl := Except.ok.inj hstep
      exact congrArg State.finished (Except.ok.inj hrest)
  | _ => simp [step, takeValue, takeName] at hstep

theorem eq_and_isSpace_of_run_finished (hfuel : t.length < fuel)
    (hrun : run (.finished v) (tokensFrom fuel pos t) = .ok w) :
    v = w ∧ ∀ c ∈ t, isSpace c = true := by
  induction fuel generalizing pos t with
  | zero => simp at hfuel
  | succ fuel ih =>
      cases t with
      | nil => exact ⟨State.finished.inj (eq_finished_of_run_nil hrun), by simp⟩
      | cons c t =>
          cases hc : isSpace c with
          | true =>
              rw [tokensFrom, if_pos hc] at hrun
              obtain ⟨hsame, ht⟩ := ih (Nat.lt_of_succ_lt_succ hfuel) hrun
              exact ⟨hsame, List.forall_mem_cons.mpr ⟨hc, ht⟩⟩
          | false =>
              obtain ⟨tok, after, rest, s', htoken, hstep, -⟩ := exists_token_of_run hc hrun
              obtain rfl : tok = .endOfText := by
                cases tok <;> simp [step] at hstep ⊢
              exact absurd htoken (token_ne_endOfText pos c t after rest)

/-- A finished machine takes blanks and nothing else. -/
theorem run_finished_eq_ok_iff (hfuel : t.length < fuel) :
    run (.finished v) (tokensFrom fuel pos t) = .ok w ↔
      v = w ∧ ∀ c ∈ t, isSpace c = true := by
  refine ⟨eq_and_isSpace_of_run_finished hfuel, ?_⟩
  rintro ⟨rfl, hblank⟩
  have hleads : Leads (.finished v) t (.finished v) [] := by
    simpa using leads_spaces hblank (.finished v) []
  obtain ⟨fuel', pos', hfuel', hrun⟩ := hleads fuel pos hfuel
  rw [hrun]
  cases fuel' with
  | zero => simp at hfuel'
  | succ fuel' => rfl

/-- The machine reads its way to the object in the same way whatever is written after it. -/
theorem leads_append_of_run (hs : ∀ v, s ≠ .finished v) (hfuel : t.length < fuel)
    (hrun : run s (tokensFrom fuel pos t) = .ok (.object ms)) :
    '\x7d' ∈ t ∧ ∀ more, Leads s (t ++ more) (.finished (.object ms)) more := by
  induction fuel generalizing s pos t with
  | zero => simp at hfuel
  | succ fuel ih =>
      cases t with
      | nil => exact absurd (eq_finished_of_run_nil hrun) (hs _)
      | cons c t =>
          have hlength : t.length < fuel := Nat.lt_of_succ_lt_succ hfuel
          cases hc : isSpace c with
          | true =>
              rw [tokensFrom, if_pos hc] at hrun
              obtain ⟨hbrace, hmore⟩ := ih hs hlength hrun
              exact ⟨List.mem_cons_of_mem c hbrace,
                fun more => (leads_space hc s (t ++ more)).trans (hmore more)⟩
          | false =>
              obtain ⟨tok, after, rest, s', htoken, hstep, hrest⟩ := exists_token_of_run hc hrun
              have hsuffix : rest <:+ t := (suffix_of_token htoken).1
              have hfuel' : rest.length < fuel := Nat.lt_of_le_of_lt hsuffix.length_le hlength
              by_cases hs' : ∃ v, s' = .finished v
              · obtain ⟨v, rfl⟩ := hs'
                obtain ⟨rfl, hblank⟩ := eq_and_isSpace_of_run_finished hfuel' hrest
                obtain rfl := eq_closeObject_of_step hs hstep
                obtain ⟨rfl, rfl⟩ := eq_of_token_closeObject htoken
                refine ⟨List.mem_cons_self, fun more => ?_⟩
                exact ((begins_closeObject (rest ++ more)).leads (step_of_step hstep)).trans
                  (leads_spaces hblank _ more)
              · obtain ⟨hbrace, hmore⟩ := ih (fun v hv => hs' ⟨v, hv⟩) hfuel' hrest
                refine ⟨List.mem_cons_of_mem c (hsuffix.subset hbrace), fun more => ?_⟩
                have hbroken : ∀ offset problem, tok ≠ .broken offset problem := by
                  rintro offset problem rfl
                  exact step_broken s pos offset problem hstep
                exact ((begins_append_of_token hc htoken hbroken hbrace more).leads
                  (step_of_step hstep)).trans (hmore more)

end

/-- After an object only blanks may come. -/
theorem decode_append_eq_ok_iff {t more : Text} {ms : Members} {v : Json}
    (hdecode : decode t = .ok (.object ms)) :
    decode (t ++ more) = .ok v ↔ .object ms = v ∧ ∀ c ∈ more, isSpace c = true := by
  unfold decode at hdecode
  split at hdecode
  · simp at hdecode
  · next hmark =>
    rw [mapError_eq_ok_iff] at hdecode
    obtain ⟨hbrace, hmore⟩ := leads_append_of_run (by simp) (Nat.lt_succ_self _) hdecode
    have hhead : (t ++ more).head? = t.head? := by
      cases t with
      | nil => simp at hbrace
      | cons c u => rfl
    obtain ⟨fuel, pos, hfuel, hrun⟩ := hmore more _ 0 (Nat.lt_succ_self _)
    rw [decode, hhead, if_neg hmark, mapError_eq_ok_iff, tokens, hrun,
      run_finished_eq_ok_iff hfuel]

end EmulationBindings.Json
