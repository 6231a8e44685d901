import EmulationBindings.Json.Decoder
import EmulationBindings.Proofs.Json.Tokens

/-!
# Reading back what was written

The decoder gives back every value that holds no decimal and no string without a text, whose
integers are short enough to be read, and whose objects have no name twice.  The induction is on
the value, and says how the machine gets over its text: from any state that awaits a value, on any
stack, and whatever follows.
-/

namespace EmulationBindings.Json

/-! ## The machine on texts -/

/-- From `s` the machine reads `t` down to `rest`, and is then in `s'`. -/
def Leads (s : State) (t : Text) (s' : State) (rest : Text) : Prop :=
  ∀ fuel pos, t.length < fuel → ∃ fuel' pos', rest.length < fuel' ∧
    run s (tokensFrom fuel pos t) = run s' (tokensFrom fuel' pos' rest)

section

variable {s s' s'' : State} {t rest more : Text} {tok : Token}

theorem Leads.refl (s : State) (t : Text) : Leads s t s t :=
  fun fuel pos hfuel => ⟨fuel, pos, hfuel, rfl⟩

theorem Leads.trans (hfirst : Leads s t s' rest) (hsecond : Leads s' rest s'' more) :
    Leads s t s'' more := by
  intro fuel pos hfuel
  obtain ⟨fuel', pos', hfuel', hrun⟩ := hfirst fuel pos hfuel
  obtain ⟨fuel'', pos'', hfuel'', hrun'⟩ := hsecond fuel' pos' hfuel'
  exact ⟨fuel'', pos'', hfuel'', hrun.trans hrun'⟩

theorem leads_space {c : Char} (hc : isSpace c = true) (s : State) (t : Text) :
    Leads s (c :: t) s t := by
  intro fuel pos hfuel
  cases fuel with
  | zero => simp at hfuel
  | succ fuel => exact ⟨fuel, pos + 1, Nat.lt_of_succ_lt_succ hfuel, by rw [tokensFrom, if_pos hc]⟩

theorem leads_spaces {spaces : Text} (hspaces : ∀ c ∈ spaces, isSpace c = true) (s : State)
    (t : Text) : Leads s (spaces ++ t) s t := by
  induction spaces with
  | nil => exact .refl s t
  | cons c more ih =>
      have hc : isSpace c = true := hspaces c List.mem_cons_self
      have hmore := ih fun d hd => hspaces d (List.mem_cons_of_mem c hd)
      exact (leads_space hc s (more ++ t)).trans hmore

theorem leads_newline (depth : Nat) (s : State) (t : Text) :
    Leads s (newline depth ++ t) s t := by
  apply leads_spaces
  intro c hc
  rcases List.mem_cons.mp hc with rfl | hblank
  · rfl
  · rw [List.eq_of_mem_replicate hblank]
    rfl

theorem step_broken (s : State) (pos offset : Nat) (problem : Problem) :
    step s (pos, .broken offset problem) ≠ .ok s' := by
  cases s <;> simp [step, takeValue, takeName]

theorem Begins.leads (hbegins : Begins t tok rest) (hstep : ∀ pos, step s (pos, tok) = .ok s') :
    Leads s t s' rest := by
  obtain ⟨c, u, rfl, hspace, hsuffix, htoken⟩ := hbegins
  intro fuel pos hfuel
  cases fuel with
  | zero => simp at hfuel
  | succ fuel =>
      obtain ⟨after, hafter⟩ := htoken pos
      have hlength : rest.length < fuel :=
        Nat.lt_of_le_of_lt hsuffix.length_le (Nat.lt_of_succ_lt_succ hfuel)
      refine ⟨fuel, after, hlength, ?_⟩
      have htokens : tokensFrom (fuel + 1) pos (c :: u) =
          (pos, tok) :: tokensFrom fuel after rest := by
        rw [tokensFrom, hspace, hafter]
        cases tok with
        | broken offset problem => exact absurd (hstep pos) (step_broken s pos offset problem)
        | _ => rfl
      rw [htokens, run, hstep pos]
      rfl

end

/-! ## Punctuation -/

theorem begins_of_token {c : Char} {t : Text} {tok : Token} (hspace : isSpace c = false)
    (htoken : ∀ pos, token pos c t = (tok, pos + 1, t)) : Begins (c :: t) tok t :=
  ⟨c, t, rfl, hspace, List.suffix_refl t, fun pos => ⟨pos + 1, htoken pos⟩⟩

theorem begins_openArray (t : Text) : Begins ('[' :: t) .openArray t :=
  begins_of_token rfl fun _ => rfl

theorem begins_closeArray (t : Text) : Begins (']' :: t) .closeArray t :=
  begins_of_token rfl fun _ => rfl

theorem begins_openObject (t : Text) : Begins ('\x7b' :: t) .openObject t :=
  begins_of_token rfl fun _ => rfl

theorem begins_closeObject (t : Text) : Begins ('\x7d' :: t) .closeObject t :=
  begins_of_token rfl fun _ => rfl

theorem begins_colon (t : Text) : Begins (':' :: t) .colon t :=
  begins_of_token rfl fun _ => rfl

theorem begins_comma (t : Text) : Begins (',' :: t) .comma t :=
  begins_of_token rfl fun _ => rfl

/-! ## Values -/

def children : Json → List Json
  | .array items => items
  | .object members => members.map Prod.snd
  | _ => []

/-- The value and every value in it, at any depth, has the property. -/
inductive Every (p : Json → Prop) : Json → Prop where
  | intro {v : Json} (hself : p v) (hinside : ∀ w ∈ v.children, Every p w) : Every p v

/-- Apart from the values in it, nothing keeps this value from being read as it is written.  A
decimal is left out, because another text may denote it, and so is a string that denotes no
text. -/
def Legible : Json → Prop
  | .int n => (Text.ofNat n.natAbs).length ≤ maxDigits
  | .object members => (members.map Prod.fst).Nodup
  | .decimal _ | .unpaired _ => False
  | _ => True

/-- In this state a value may come, and goes where the innermost frame of the stack says. -/
def Awaits (s : State) (stack : List Frame) : Prop :=
  ∀ pos tok, tok ≠ .closeArray → step s (pos, tok) = takeValue stack pos tok

/-- The machine gets over the text of `v` wherever a value may come. -/
def Crosses (v : Json) : Prop :=
  ∀ depth s stack rest, Awaits s stack → Follows rest →
    Leads s (renderAt depth v ++ rest) (complete v stack) rest

theorem crosses_of_begins {v : Json} {value : Scalar} (hvalue : value.value = .ok v)
    (hbegins : ∀ depth rest, Follows rest →
      Begins (renderAt depth v ++ rest) (.scalar value) rest) : Crosses v := by
  intro depth s stack rest hs hrest
  apply (hbegins depth rest hrest).leads
  intro pos
  rw [hs pos _ (by simp), takeValue, hvalue]
  rfl

theorem crosses_int {n : Int} (hlength : (Text.ofNat n.natAbs).length ≤ maxDigits) :
    Crosses (.int n) := by
  refine crosses_of_begins ?_ fun depth rest hrest => begins_int hrest n
  rw [Scalar.value, if_neg (Nat.not_lt.mpr hlength), Text.digitsValue_ofNat]
  simp only [decide_eq_true_eq, Except.ok.injEq, Json.int.injEq]
  omega

/-! ## Entries of arrays and objects -/

theorem follows_newline (depth : Nat) (t : Text) : Follows (newline depth ++ t) := by
  intro c hc
  exact .inr (Option.some.inj hc).symm

theorem follows_comma (t : Text) : Follows (',' :: t) := by
  intro c hc
  exact .inl (Option.some.inj hc).symm

section

variable {α : Type} {all : List α} {text : α → Text} (ready done : List α → State)

/-- The machine gets over a list of entries when it gets over each of them: from the state that is
ready for one entry after `before`, to the state in which it is done with that entry too. -/
theorem leads_entries
    (hentry : ∀ before a more, before ++ a :: more = all → ∀ rest, Follows rest →
      Leads (ready before) (text a ++ rest) (done (before ++ [a])) rest)
    (hcomma : ∀ before a pos,
      step (done (before ++ [a])) (pos, .comma) = .ok (ready (before ++ [a])))
    (depth : Nat) {before : List α} {a : α} {more : List α} (hall : before ++ a :: more = all)
    {rest : Text} (hrest : Follows rest) :
    Leads (ready before)
      (List.intercalate (',' :: newline depth) ((a :: more).map text) ++ rest) (done all) rest := by
  induction more generalizing before a with
  | nil =>
      rw [List.map_singleton, List.intercalate_singleton, ← hall]
      exact hentry before a [] hall rest hrest
  | cons b more ih =>
      have hmore : Leads (ready (before ++ [a]))
          (List.intercalate (',' :: newline depth) ((b :: more).map text) ++ rest)
          (done all) rest :=
        ih (by simpa using hall)
      have hnext := (leads_newline depth _ _).trans hmore
      have hcommas := ((begins_comma _).leads (hcomma before a)).trans hnext
      have hrun := (hentry before a (b :: more) hall _ (follows_comma _)).trans hcommas
      simpa [List.intercalate_cons_cons] using hrun

/-- The machine gets over a block when it gets over the brackets around the entries as well. -/
theorem leads_block
    (hentry : ∀ before a more, before ++ a :: more = all → ∀ rest, Follows rest →
      Leads (ready before) (text a ++ rest) (done (before ++ [a])) rest)
    (hcomma : ∀ before a pos,
      step (done (before ++ [a])) (pos, .comma) = .ok (ready (before ++ [a])))
    {opening closing : Char} {s s' : State} (hopen : ∀ t, Leads s (opening :: t) (ready []) t)
    (hclose : ∀ t, Leads (if all = [] then ready [] else done all) (closing :: t) s' t)
    (depth : Nat) (rest : Text) :
    Leads s (block depth opening closing (all.map text) ++ rest) s' rest := by
  cases all with
  | nil => exact (hopen (closing :: rest)).trans (hclose rest)
  | cons a more =>
      have hall : [] ++ a :: more = a :: more := rfl
      have hentries := leads_entries ready done hentry hcomma (depth + 1) hall
        (follows_newline depth (closing :: rest))
      have hlast := (leads_newline depth _ _).trans (hclose rest)
      have hrun := (hopen _).trans ((leads_newline (depth + 1) _ _).trans (hentries.trans hlast))
      simpa [block] using hrun

end

theorem renderItems_eq_map (depth : Nat) (items : List Json) :
    renderItems depth items = items.map (renderAt depth) := by
  induction items with
  | nil => rfl
  | cons v rest ih => rw [renderItems, ih, List.map_cons]

/-- The line of a member. -/
def renderMember (depth : Nat) (m : Text × Json) : Text :=
  quote m.1 ++ ": " ++ renderAt depth m.2

theorem renderMembers_eq_map (depth : Nat) (members : Members) :
    renderMembers depth members = members.map (renderMember depth) := by
  induction members with
  | nil => rfl
  | cons m rest ih => rw [renderMembers, ih, List.map_cons, renderMember]

theorem renderAt_array (depth : Nat) (items : List Json) :
    renderAt depth (.array items) =
      block depth '[' ']' (items.map (renderAt (depth + 1))) := by
  rw [← renderItems_eq_map]
  rfl

theorem renderAt_object (depth : Nat) (members : Members) :
    renderAt depth (.object members) =
      block depth '\x7b' '\x7d' (members.map (renderMember (depth + 1))) := by
  rw [← renderMembers_eq_map]
  rfl

/-! ## Arrays -/

/-- The machine after some items of an array, ready for one more. -/
def readyForItem (stack : List Frame) : List Json → State
  | [] => .firstItem stack
  | v :: rest => .value (.array (v :: rest).reverse :: stack)

theorem awaits_readyForItem (stack : List Frame) (before : List Json) :
    Awaits (readyForItem stack before) (.array before.reverse :: stack) := by
  intro pos tok htok
  cases before with
  | nil =>
      cases tok with
      | closeArray => exact absurd rfl htok
      | _ => rfl
  | cons v rest => rfl

theorem crosses_array {items : List Json} (hitems : ∀ v ∈ items, Crosses v) :
    Crosses (.array items) := by
  intro depth s stack rest hs hrest
  rw [renderAt_array]
  apply leads_block (readyForItem stack) fun before => .afterItem before.reverse stack
  · intro before v more hall t ht
    have hv : Crosses v := hitems v (by simp [← hall])
    have hvalue := hv (depth + 1) _ _ t (awaits_readyForItem stack before) ht
    simpa [complete] using hvalue
  · intro before v pos
    cases before <;> simp [step, readyForItem]
  · intro t
    apply (begins_openArray t).leads
    intro pos
    rw [hs pos _ (by simp)]
    rfl
  · intro t
    apply (begins_closeArray t).leads
    intro pos
    split
    · next hnil => rw [hnil]; rfl
    · simp [step]

/-! ## Objects -/

/-- The machine after some members of an object, ready for one more. -/
def readyForName (stack : List Frame) : Members → State
  | [] => .firstName stack
  | m :: rest => .name (m :: rest) stack

theorem step_readyForName (stack : List Frame) (before : Members) (name : Text) (pos : Nat) :
    step (readyForName stack before) (pos, .scalar (.string name)) =
      .ok (.colon before name stack) := by
  cases before <;> rfl

theorem put_of_not_mem {members : Members} {name : Text} (hname : name ∉ members.map Prod.fst)
    (v : Json) : members.put name v = members ++ [(name, v)] := by
  induction members with
  | nil => rfl
  | cons m rest ih =>
      simp only [List.map_cons, List.mem_cons, not_or] at hname
      rw [Members.put, if_neg (Ne.symm hname.1), ih hname.2, List.cons_append]

theorem leads_member {s : State} {before : Members} {stack : List Frame} {m : Text × Json}
    (hm : Crosses m.2)
    (hname : ∀ pos, step s (pos, .scalar (.string m.1)) = .ok (.colon before m.1 stack))
    (depth : Nat) {rest : Text} (hrest : Follows rest) :
    Leads s (renderMember depth m ++ rest) (.afterMember (before.put m.1 m.2) stack) rest := by
  have hvalue : Leads (.value (.object before m.1 :: stack)) (renderAt depth m.2 ++ rest)
      (.afterMember (before.put m.1 m.2) stack) rest :=
    hm depth _ (.object before m.1 :: stack) rest (fun _ _ _ => rfl) hrest
  have hblank : isSpace ' ' = true := rfl
  have hspace := (leads_space hblank _ _).trans hvalue
  have hcolon : ∀ pos, step (.colon before m.1 stack) (pos, .colon) =
      .ok (.value (.object before m.1 :: stack)) := fun _ => rfl
  have hrun := ((begins_string m.1 _).leads hname).trans
    (((begins_colon _).leads hcolon).trans hspace)
  simpa [renderMember] using hrun

theorem crosses_object {members : Members} (hnames : (members.map Prod.fst).Nodup)
    (hmembers : ∀ m ∈ members, Crosses m.2) : Crosses (.object members) := by
  intro depth s stack rest hs hrest
  rw [renderAt_object]
  apply leads_block (readyForName stack) fun before => .afterMember before stack
  · intro before m more hall t ht
    have hm : Crosses m.2 := hmembers m (by simp [← hall])
    have hfresh : m.1 ∉ before.map Prod.fst := by
      rw [← hall, List.map_append, List.map_cons, List.nodup_append] at hnames
      exact fun hmem => hnames.2.2 _ hmem _ List.mem_cons_self rfl
    rw [← put_of_not_mem hfresh m.2]
    exact leads_member hm (step_readyForName stack before m.1) (depth + 1) ht
  · intro before m pos
    cases before <;> simp [step, readyForName]
  · intro t
    apply (begins_openObject t).leads
    intro pos
    rw [hs pos _ (by simp)]
    rfl
  · intro t
    apply (begins_closeObject t).leads
    intro pos
    split
    · next hnil => rw [hnil]; rfl
    · simp [step]

/-! ## Documents -/

theorem crosses_word {v : Json} {word : Text} {value : Scalar} (hword : (word, value) ∈ words)
    (hvalue : value.value = .ok v) (htext : ∀ depth, renderAt depth v = word) : Crosses v := by
  refine crosses_of_begins hvalue fun depth rest _ => ?_
  rw [htext depth]
  exact begins_word hword rest

theorem crosses_of_every {v : Json} (hv : Every Legible v) : Crosses v := by
  have hword : ∀ w ∈ words, w ∈ words := fun _ hw => hw
  simp only [words, List.forall_mem_cons] at hword
  obtain ⟨hnull, htrue, hfalse, hnan, hinfinity, hnegative, -⟩ := hword
  induction hv with
  | @intro v hself _ ih =>
      cases v with
      | null => exact crosses_word hnull rfl fun _ => rfl
      | bool b =>
          cases b with
          | false => exact crosses_word hfalse rfl fun _ => rfl
          | true => exact crosses_word htrue rfl fun _ => rfl
      | int n => exact crosses_int hself
      | decimal d => exact hself.elim
      | nan => exact crosses_word hnan rfl fun _ => rfl
      | infinity negative =>
          cases negative with
          | false => exact crosses_word hinfinity rfl fun _ => rfl
          | true => exact crosses_word hnegative rfl fun _ => rfl
      | string s =>
          have hvalue : (Scalar.string s).value = .ok (.string s) := rfl
          exact crosses_of_begins hvalue fun _ rest _ => begins_string s rest
      | unpaired units => exact hself.elim
      | array items => exact crosses_array ih
      | object members => exact crosses_object hself fun m hm => ih m.2 (List.mem_map_of_mem hm)

theorem isAscii_newline (depth : Nat) : Text.IsAscii (newline depth) := by
  intro c hc
  rcases List.mem_cons.mp hc with rfl | hblank
  · decide
  · rw [List.eq_of_mem_replicate hblank]
    decide

theorem isAscii_block {opening closing : Char} (hopening : opening.toNat < 0x80)
    (hclosing : closing.toNat < 0x80) (depth : Nat) {entries : List Text}
    (hentries : ∀ t ∈ entries, Text.IsAscii t) :
    Text.IsAscii (block depth opening closing entries) := by
  have hseparator : Text.IsAscii (',' :: newline (depth + 1)) :=
    Text.isAscii_cons.mpr ⟨by decide, isAscii_newline (depth + 1)⟩
  unfold block
  split
  · simp [hopening, hclosing]
  · simp [hopening, hclosing, isAscii_newline, Text.isAscii_intercalate hseparator hentries]

theorem isAscii_renderAt {v : Json} (hv : Every Legible v) (depth : Nat) :
    Text.IsAscii (renderAt depth v) := by
  have hword : ∀ w ∈ words, Text.IsAscii w.1 := by simp [words]
  simp only [words, List.forall_mem_cons] at hword
  obtain ⟨hnull, htrue, hfalse, hnan, hinfinity, hnegative, -⟩ := hword
  induction hv generalizing depth with
  | @intro v hself _ ih =>
      cases v with
      | null => exact hnull
      | bool b =>
          cases b with
          | false => exact hfalse
          | true => exact htrue
      | int n => exact Text.isAscii_ofInt n
      | decimal d => exact hself.elim
      | nan => exact hnan
      | infinity negative =>
          cases negative with
          | false => exact hinfinity
          | true => exact hnegative
      | string s => exact isAscii_quote s
      | unpaired units => exact hself.elim
      | array items =>
          rw [renderAt_array]
          apply isAscii_block (by decide) (by decide)
          intro t ht
          obtain ⟨w, hw, rfl⟩ := List.mem_map.mp ht
          exact ih w hw (depth + 1)
      | object members =>
          rw [renderAt_object]
          apply isAscii_block (by decide) (by decide)
          intro t ht
          obtain ⟨m, hm, rfl⟩ := List.mem_map.mp ht
          have hvalue := ih m.2 (List.mem_map_of_mem hm) (depth + 1)
          simp [renderMember, isAscii_quote, hvalue]

theorem head?_ne_byteOrderMark {t : Text} (ht : t.IsAscii) : t.head? ≠ some '\uFEFF' := by
  intro hhead
  have hlow := ht _ (List.mem_of_head? hhead)
  revert hlow
  decide

theorem decode_render {v : Json} (hv : Every Legible v) : decode (render v ++ ['\n']) = .ok v := by
  have hascii : Text.IsAscii (render v ++ ['\n']) :=
    Text.isAscii_append.mpr ⟨isAscii_renderAt hv 0, by simp⟩
  have hvalue : Leads (.value []) (render v ++ ['\n']) (.finished v) ['\n'] :=
    crosses_of_every hv 0 _ [] _ (fun _ _ _ => rfl) (follows_newline 0 [])
  have hend : Leads (.value []) (render v ++ ['\n']) (.finished v) [] :=
    hvalue.trans (leads_space rfl _ [])
  obtain ⟨fuel, pos, hfuel, hrun⟩ := hend ((render v ++ ['\n']).length + 1) 0 (Nat.lt_succ_self _)
  have hlast : run (.finished v) (tokensFrom fuel pos []) = .ok v := by
    cases fuel with
    | zero => simp at hfuel
    | succ fuel => rfl
  rw [decode, if_neg (head?_ne_byteOrderMark hascii), tokens, hrun, hlast]
  rfl

end EmulationBindings.Json
