/-
  Routebook.Proofs.Json.RoundTrip

  Reading what was printed gives the printed value back (`read?_print`), for
  every style whose numbers are read back and every value that the reader's
  limits receive.  Only a key that an object repeats is merged with its first
  mention (`collapsed`); a value without such keys comes back as it was
  (`collapsed_eq_self`).

  The proof goes through the tokens of a value (`spell`): the text of a value
  is cut into them (`scan_write`), and the reader builds the value from them
  (`run_spell`).  Both inductions follow the structure of the value, and both
  are stated with what follows it: the rest of the text, the rest of the
  tokens and the stack of open arrays and objects.
-/
import Routebook.Json.Reader
import Routebook.Proofs.Entries
import Routebook.Proofs.Json.Lexeme

namespace Routebook.Json

/-! ## The tokens of a value -/

mutual
/-- The tokens that the text of a value consists of. -/
def spell : Value → List Token
  | .null => [.null]
  | .bool b => [.bool b]
  | .int n => [.int n]
  | .float x => [.float x]
  | .string s => [.string s]
  | .array [] => [.openArray, .closeArray]
  | .array (x :: xs) => .openArray :: (spell x ++ (spellItems xs ++ [.closeArray]))
  | .object [] => [.openObject, .closeObject]
  | .object ((k, x) :: xs) =>
    .openObject :: .string k :: .colon :: (spell x ++ (spellFields xs ++ [.closeObject]))

/-- The tokens of the items after the first one. -/
def spellItems : List Value → List Token
  | [] => []
  | x :: xs => .comma :: (spell x ++ spellItems xs)

/-- The tokens of the fields after the first one. -/
def spellFields : List (String × Value) → List Token
  | [] => []
  | (k, x) :: xs => .comma :: .string k :: .colon :: (spell x ++ spellFields xs)
end

/-! ## What can be read back -/

mutual
/-- What is read of a value: a key that an object repeats keeps the place of
its first mention and the value of its last one. -/
def collapsed : Value → Value
  | .array xs => .array (collapsedItems xs)
  | .object xs => .object (collapsedFields [] xs)
  | v => v

/-- `collapsed` of every item. -/
def collapsedItems : List Value → List Value
  | [] => []
  | x :: xs => collapsed x :: collapsedItems xs

/-- The fields read so far, with some more put into them. -/
def collapsedFields (fields : Entries Value) : List (String × Value) → Entries Value
  | [] => fields
  | (k, x) :: xs => collapsedFields (Entries.put k (collapsed x) fields) xs
end

mutual
/-- Whether no object inside a value repeats a key. -/
def Distinct : Value → Prop
  | .array xs => DistinctAll xs
  | .object xs => (Entries.keys xs).Nodup ∧ DistinctFields xs
  | _ => True

/-- `Distinct` for every item. -/
def DistinctAll : List Value → Prop
  | [] => True
  | x :: xs => Distinct x ∧ DistinctAll xs

/-- `Distinct` for every field. -/
def DistinctFields : List (String × Value) → Prop
  | [] => True
  | (_, x) :: xs => Distinct x ∧ DistinctFields xs
end

/-- The text of a double is one token wherever a number may end. -/
structure Style.Reads (style : Style) (dialect : Dialect) (x : Double) : Prop where
  first : ∀ rest, Ends rest →
    Token.first dialect ((style.float x).toList ++ rest) = some (.float x, rest)
  start : ∃ c cs, (style.float x).toList = c :: cs ∧ Token.isBlank c = false

mutual
/-- The limits of a reader receive a value inside `depth` arrays and objects:
nothing is nested too deep, integers are short enough and doubles are read
back. -/
def Admits (style : Style) (dialect : Dialect) (depth : Nat) : Value → Prop
  | .int n => dialect.AdmitsInt n
  | .float x => style.Reads dialect x
  | .array xs => (∀ m ∈ dialect.maxDepth, depth < m) ∧ AdmitsAll style dialect (depth + 1) xs
  | .object xs =>
    (∀ m ∈ dialect.maxDepth, depth < m) ∧ AdmitsFields style dialect (depth + 1) xs
  | _ => True

/-- `Admits` for every item. -/
def AdmitsAll (style : Style) (dialect : Dialect) (depth : Nat) : List Value → Prop
  | [] => True
  | x :: xs => Admits style dialect depth x ∧ AdmitsAll style dialect depth xs

/-- `Admits` for every field. -/
def AdmitsFields (style : Style) (dialect : Dialect) (depth : Nat) : List (String × Value) → Prop
  | [] => True
  | (_, x) :: xs => Admits style dialect depth x ∧ AdmitsFields style dialect depth xs
end

/-- Between a key and its value stands a colon with blanks. -/
def Style.Separates (style : Style) : Prop :=
  ∃ blanks, style.keySeparator.toList = ':' :: blanks ∧ ∀ c ∈ blanks, Token.isBlank c = true

/-! ## From texts to tokens -/

/-- A text consists of these tokens and blanks between them. -/
inductive Scan (dialect : Dialect) : List Char → List Token → Prop where
  | done {cs : List Char} (h : cs.dropWhile Token.isBlank = []) : Scan dialect cs []
  | token {cs cs' rest : List Char} {t : Token} {ts : List Token}
      (hcs : cs.dropWhile Token.isBlank = cs') (hfirst : Token.first dialect cs' = some (t, rest))
      (hne : cs' ≠ []) (hlen : rest.length < cs.length) (h : Scan dialect rest ts) :
      Scan dialect cs (t :: ts)

section Scanning

variable {dialect : Dialect}

theorem Scan.length_le {cs : List Char} {ts : List Token} (h : Scan dialect cs ts) :
    ts.length ≤ cs.length := by
  induction h with
  | done _ => exact Nat.zero_le _
  | token _ _ _ hlen _ ih =>
      rw [List.length_cons]
      omega

theorem all_of_scan {cs : List Char} {ts : List Token} (h : Scan dialect cs ts) (fuel : Nat)
    (acc : List Token) (hfuel : ts.length < fuel) :
    Token.all dialect fuel acc cs = some (acc.reverse ++ ts) := by
  induction h generalizing fuel acc with
  | done hcs =>
      obtain ⟨fuel, rfl⟩ : ∃ n, fuel = n + 1 := ⟨fuel - 1, by omega⟩
      rw [Token.all, hcs, List.append_nil]
  | @token cs cs' rest t ts hcs hfirst hne _ _ ih =>
      obtain ⟨fuel, rfl⟩ : ∃ n, fuel = n + 1 := ⟨fuel - 1, by omega⟩
      rw [List.length_cons] at hfuel
      have hnext := ih fuel (t :: acc) (by omega)
      rw [Token.all, hcs]
      obtain ⟨c, cs'', rfl⟩ := List.exists_cons_of_ne_nil hne
      simp only [hfirst, hnext]
      simp

/-- A text is cut into the tokens it consists of. -/
theorem tokens_of_scan {cs : List Char} {ts : List Token} (h : Scan dialect cs ts) :
    tokens dialect cs = some ts :=
  all_of_scan h _ [] (Nat.lt_succ_of_le h.length_le)

/-- Blanks in front do not matter. -/
theorem Scan.blank {c : Char} {cs : List Char} {ts : List Token} (hc : Token.isBlank c = true)
    (h : Scan dialect cs ts) : Scan dialect (c :: cs) ts := by
  have hdrop : (c :: cs).dropWhile Token.isBlank = cs.dropWhile Token.isBlank :=
    List.dropWhile_cons_of_pos hc
  cases h with
  | done hcs => exact .done (hdrop.trans hcs)
  | token hcs hfirst hne hlen h =>
      exact .token (hdrop.trans hcs) hfirst hne (Nat.lt_succ_of_lt hlen) h

theorem Scan.blanks {blanks cs : List Char} {ts : List Token}
    (hblanks : ∀ c ∈ blanks, Token.isBlank c = true) (h : Scan dialect cs ts) :
    Scan dialect (blanks ++ cs) ts := by
  induction blanks with
  | nil => exact h
  | cons c blanks ih =>
      exact .blank (hblanks c List.mem_cons_self)
        (ih fun d hd => hblanks d (List.mem_cons_of_mem _ hd))

/-- A token that starts with the first character. -/
theorem Scan.lexeme {c : Char} {cs rest : List Char} {t : Token} {ts : List Token}
    (hc : Token.isBlank c = false)
    (hfirst : Token.first dialect (c :: cs ++ rest) = some (t, rest))
    (h : Scan dialect rest ts) : Scan dialect (c :: cs ++ rest) (t :: ts) := by
  refine .token (List.dropWhile_cons_of_neg (by simp [hc])) hfirst (by simp) ?_ h
  simp only [List.cons_append, List.length_cons, List.length_append]
  omega

/-- A token of one character. -/
theorem Scan.mark {c : Char} {rest : List Char} {t : Token} {ts : List Token}
    (hc : Token.isBlank c = false) (hfirst : Token.first dialect (c :: rest) = some (t, rest))
    (h : Scan dialect rest ts) : Scan dialect (c :: rest) (t :: ts) :=
  @Scan.lexeme dialect c [] rest t ts hc hfirst h

theorem Scan.lineBreak {style : Style} (level : Nat) {cs : List Char} {ts : List Token}
    (h : Scan dialect cs ts) : Scan dialect ((style.lineBreak level).toList ++ cs) ts := by
  refine .blanks (fun c hc => ?_) h
  unfold Style.lineBreak at hc
  split at hc
  · exact absurd hc (by simp)
  · rcases List.mem_append.mp (String.toList_append ▸ hc) with hc | hc
    · rw [show c = '\n' by simpa using hc]
      decide
    · rw [String.toList_ofList] at hc
      rw [List.eq_of_mem_replicate hc]
      decide

theorem Scan.quoted (s : String) {rest : List Char} {ts : List Token}
    (h : Scan dialect rest ts) :
    Scan dialect ((Json.quoted s).toList ++ rest) (.string s :: ts) := by
  have hfirst := first_quoted dialect s rest
  have hchars : (Json.quoted s).toList = '\x22' :: (s.toList.flatMap escapedChar ++ ['\x22']) := by
    simp [Json.quoted]
  rw [hchars] at hfirst ⊢
  exact .lexeme (by decide) hfirst h

theorem Scan.separator {style : Style} (hsep : style.Separates) {rest : List Char}
    {ts : List Token} (h : Scan dialect rest ts) :
    Scan dialect (style.keySeparator.toList ++ rest) (.colon :: ts) := by
  obtain ⟨blanks, hchars, hblanks⟩ := hsep
  rw [hchars, List.cons_append]
  exact .mark (by decide) rfl (.blanks hblanks h)

/-! ## Where numbers end -/

theorem ends_cons {c : Char} (hc : c.isDigit = false ∧ c ≠ '.' ∧ c ≠ 'e' ∧ c ≠ 'E')
    (rest : List Char) : Ends (c :: rest) := by
  intro d hd
  rw [← Option.some.inj hd]
  exact hc

theorem ends_lineBreak (style : Style) (level : Nat) {rest : List Char} (h : Ends rest) :
    Ends ((style.lineBreak level).toList ++ rest) := by
  unfold Style.lineBreak
  split
  · exact h
  · rw [String.toList_append]
    exact ends_cons (by decide) _

theorem ends_writeItems (style : Style) (level : Nat) (xs : List Value) {rest : List Char}
    (h : Ends rest) : Ends ((writeItems style level xs).toList ++ rest) := by
  cases xs with
  | nil =>
      rw [writeItems]
      exact h
  | cons x xs =>
      rw [writeItems]
      simp only [String.toList_append]
      exact ends_cons (by decide) _

theorem ends_writeFields (style : Style) (level : Nat) (xs : List (String × Value))
    {rest : List Char} (h : Ends rest) : Ends ((writeFields style level xs).toList ++ rest) := by
  cases xs with
  | nil =>
      rw [writeFields]
      exact h
  | cons e xs =>
      rw [writeFields]
      simp only [String.toList_append]
      exact ends_cons (by decide) _

/-! ## Texts of values -/

variable {style : Style}

mutual
/-- The text of a value is cut into its tokens, whatever follows it. -/
theorem scan_write (hsep : style.Separates) (level depth : Nat) {rest : List Char}
    {ts : List Token} (hends : Ends rest) (h : Scan dialect rest ts) :
    ∀ v : Value, Admits style dialect depth v →
      Scan dialect ((write style level v).toList ++ rest) (spell v ++ ts)
  | .null, _ => by
      rw [write, spell]
      exact .lexeme (by decide) rfl h
  | .bool b, _ => by
      rw [write, spell]
      cases b with
      | true => exact .lexeme (by decide) rfl h
      | false => exact .lexeme (by decide) rfl h
  | .int n, hv => by
      rw [Admits] at hv
      have hfirst := first_int dialect hv hends
      obtain ⟨c, cs, hchars, hc⟩ := start_whole (decide (n < 0)) (whole_toDigits n.natAbs)
      rw [write, spell]
      rw [toList_toString_int, hchars] at hfirst ⊢
      exact .lexeme hc hfirst h
  | .float x, hv => by
      rw [Admits] at hv
      rw [write, spell]
      obtain ⟨c, cs, hchars, hc⟩ := hv.start
      have hfirst := hv.first rest hends
      rw [hchars] at hfirst ⊢
      exact .lexeme hc hfirst h
  | .string s, _ => by
      rw [write, spell]
      exact .quoted s h
  | .array [], _ => by
      rw [write, spell]
      exact .mark (by decide) rfl (.mark (by decide) rfl h)
  | .array (x :: xs), hv => by
      rw [Admits, AdmitsAll] at hv
      obtain ⟨-, hx, hxs⟩ := hv
      -- From the end: the closing mark, the items behind the first one, the first one.
      have hclose : Scan dialect ((style.lineBreak level).toList ++ (']' :: rest))
          (.closeArray :: ts) := .lineBreak level (.mark (by decide) rfl h)
      have hcloseEnds : Ends ((style.lineBreak level).toList ++ (']' :: rest)) :=
        ends_lineBreak style level (ends_cons (by decide) _)
      have hitems := scan_writeItems hsep (level + 1) (depth + 1) hcloseEnds hclose xs hxs
      have hitem := scan_write hsep (level + 1) (depth + 1)
        (ends_writeItems style (level + 1) xs hcloseEnds) hitems x hx
      rw [write, spell]
      simp only [String.toList_append, List.append_assoc, List.cons_append, List.nil_append]
      exact .mark (by decide) rfl (.lineBreak (level + 1) hitem)
  | .object [], _ => by
      rw [write, spell]
      exact .mark (by decide) rfl (.mark (by decide) rfl h)
  | .object ((k, x) :: xs), hv => by
      rw [Admits, AdmitsFields] at hv
      obtain ⟨-, hx, hxs⟩ := hv
      have hclose : Scan dialect ((style.lineBreak level).toList ++ ('\x7d' :: rest))
          (.closeObject :: ts) := .lineBreak level (.mark (by decide) rfl h)
      have hcloseEnds : Ends ((style.lineBreak level).toList ++ ('\x7d' :: rest)) :=
        ends_lineBreak style level (ends_cons (by decide) _)
      have hfields := scan_writeFields hsep (level + 1) (depth + 1) hcloseEnds hclose xs hxs
      have hfield := scan_write hsep (level + 1) (depth + 1)
        (ends_writeFields style (level + 1) xs hcloseEnds) hfields x hx
      rw [write, spell]
      simp only [String.toList_append, List.append_assoc, List.cons_append, List.nil_append]
      exact .mark (by decide) rfl
        (.lineBreak (level + 1) (.quoted k (.separator hsep hfield)))

theorem scan_writeItems (hsep : style.Separates) (level depth : Nat) {rest : List Char}
    {ts : List Token} (hends : Ends rest) (h : Scan dialect rest ts) :
    ∀ xs : List Value, AdmitsAll style dialect depth xs →
      Scan dialect ((writeItems style level xs).toList ++ rest) (spellItems xs ++ ts)
  | [], _ => by
      rw [writeItems, spellItems]
      exact h
  | x :: xs, hv => by
      rw [AdmitsAll] at hv
      have hitems := scan_writeItems hsep level depth hends h xs hv.2
      have hitem := scan_write hsep level depth (ends_writeItems style level xs hends) hitems x hv.1
      rw [writeItems, spellItems]
      simp only [String.toList_append, List.append_assoc, List.cons_append]
      exact .mark (by decide) rfl (.lineBreak level hitem)

theorem scan_writeFields (hsep : style.Separates) (level depth : Nat) {rest : List Char}
    {ts : List Token} (hends : Ends rest) (h : Scan dialect rest ts) :
    ∀ xs : List (String × Value), AdmitsFields style dialect depth xs →
      Scan dialect ((writeFields style level xs).toList ++ rest) (spellFields xs ++ ts)
  | [], _ => by
      rw [writeFields, spellFields]
      exact h
  | (k, x) :: xs, hv => by
      rw [AdmitsFields] at hv
      have hfields := scan_writeFields hsep level depth hends h xs hv.2
      have hfield := scan_write hsep level depth (ends_writeFields style level xs hends) hfields
        x hv.1
      rw [writeFields, spellFields]
      simp only [String.toList_append, List.append_assoc, List.cons_append]
      exact .mark (by decide) rfl (.lineBreak level (.quoted k (.separator hsep hfield)))
end

end Scanning

/-! ## From tokens to values -/

section Running

variable {dialect : Dialect} {style : Style}

theorem run_cons {s s' : State} {t : Token} (ts : List Token)
    (h : State.step dialect s t = some s') :
    State.run dialect s (t :: ts) = State.run dialect s' ts := by
  rw [State.run, h]

theorem mayOpen_of {stack : List Frame} (h : ∀ m ∈ dialect.maxDepth, stack.length < m) :
    State.mayOpen dialect stack = true := by
  unfold State.mayOpen
  cases hm : dialect.maxDepth with
  | none => rfl
  | some m => simpa using h m hm

theorem step_scalar {t : Token} {v : Value} (h : State.scalar? t = some v) (stack : List Frame)
    (mayClose : Bool) : State.step dialect (.value stack mayClose) t = some (.done v stack) := by
  cases t <;> simp_all [State.step, State.scalar?]

theorem run_openArray {stack : List Frame} (hopen : ∀ m ∈ dialect.maxDepth, stack.length < m)
    (mayClose : Bool) (ts : List Token) :
    State.run dialect (.value stack mayClose) (.openArray :: ts)
      = State.run dialect (.value (.array [] :: stack) true) ts :=
  run_cons ts (if_pos (mayOpen_of hopen))

theorem run_openObject {stack : List Frame} (hopen : ∀ m ∈ dialect.maxDepth, stack.length < m)
    (mayClose : Bool) (ts : List Token) :
    State.run dialect (.value stack mayClose) (.openObject :: ts)
      = State.run dialect (.key [] stack true) ts :=
  run_cons ts (if_pos (mayOpen_of hopen))

/-- A key and the colon after it. -/
theorem run_key (fields : Entries Value) (k : String) (stack : List Frame) (mayClose : Bool)
    (ts : List Token) :
    State.run dialect (.key fields stack mayClose) (.string k :: .colon :: ts)
      = State.run dialect (.value (.object fields k :: stack) false) ts := by
  have hkey : State.step dialect (.key fields stack mayClose) (.string k)
      = some (.colon fields k stack) := by cases mayClose <;> rfl
  have hcolon : State.step dialect (.colon fields k stack) .colon
      = some (.value (.object fields k :: stack) false) := rfl
  rw [run_cons _ hkey, run_cons _ hcolon]

mutual
/-- The reader builds a value from its tokens, whatever is open around it. -/
theorem run_spell (stack : List Frame) (mayClose : Bool) (ts : List Token) :
    ∀ v : Value, Admits style dialect stack.length v →
      State.run dialect (.value stack mayClose) (spell v ++ ts)
        = State.run dialect (.done (collapsed v) stack) ts
  | .null, _ => by
      rw [spell]
      exact run_cons ts (step_scalar rfl stack mayClose)
  | .bool b, _ => by
      rw [spell]
      exact run_cons ts (step_scalar rfl stack mayClose)
  | .int n, _ => by
      rw [spell]
      exact run_cons ts (step_scalar rfl stack mayClose)
  | .float x, _ => by
      rw [spell]
      exact run_cons ts (step_scalar rfl stack mayClose)
  | .string s, _ => by
      rw [spell]
      exact run_cons ts (step_scalar rfl stack mayClose)
  | .array [], hv => by
      rw [Admits] at hv
      rw [spell]
      exact (run_openArray hv.1 mayClose _).trans (run_cons ts rfl)
  | .array (x :: xs), hv => by
      rw [Admits, AdmitsAll] at hv
      obtain ⟨hopen, hx, hxs⟩ := hv
      -- The first item is read with an empty array open, the others behind it.
      have hitem := run_spell (.array [] :: stack) true (spellItems xs ++ .closeArray :: ts) x hx
      have hitems := run_spellItems stack ts [] (collapsed x) xs hxs
      rw [spell]
      simp only [List.cons_append, List.append_assoc, List.nil_append]
      rw [run_openArray hopen, hitem, hitems]
      rfl
  | .object [], hv => by
      rw [Admits] at hv
      rw [spell]
      exact (run_openObject hv.1 mayClose _).trans (run_cons ts rfl)
  | .object ((k, x) :: xs), hv => by
      rw [Admits, AdmitsFields] at hv
      obtain ⟨hopen, hx, hxs⟩ := hv
      have hfield := run_spell (.object [] k :: stack) false (spellFields xs ++ .closeObject :: ts)
        x hx
      have hfields := run_spellFields stack ts [] k (collapsed x) xs hxs
      rw [spell]
      simp only [List.cons_append, List.append_assoc, List.nil_append]
      rw [run_openObject hopen, run_key, hfield, hfields]
      rfl

/-- An array is built from the items behind those that were read. -/
theorem run_spellItems (stack : List Frame) (ts : List Token) (items : List Value) (x : Value) :
    ∀ xs : List Value, AdmitsAll style dialect (stack.length + 1) xs →
      State.run dialect (.done x (.array items :: stack)) (spellItems xs ++ .closeArray :: ts)
        = State.run dialect (.done (.array (items.reverse ++ x :: collapsedItems xs)) stack) ts
  | [], _ => by
      rw [spellItems, collapsedItems, ← List.reverse_cons]
      exact run_cons ts rfl
  | y :: ys, hv => by
      rw [AdmitsAll] at hv
      have hitem := run_spell (.array (x :: items) :: stack) false
        (spellItems ys ++ .closeArray :: ts) y hv.1
      have hitems := run_spellItems stack ts (x :: items) (collapsed y) ys hv.2
      rw [spellItems, collapsedItems]
      simp only [List.cons_append, List.append_assoc]
      rw [run_cons _ rfl, hitem, hitems, List.reverse_cons, List.append_assoc,
        List.singleton_append]

/-- An object is built by putting the fields into those that were read. -/
theorem run_spellFields (stack : List Frame) (ts : List Token) (fields : Entries Value)
    (k : String) (x : Value) :
    ∀ xs : List (String × Value), AdmitsFields style dialect (stack.length + 1) xs →
      State.run dialect (.done x (.object fields k :: stack))
          (spellFields xs ++ .closeObject :: ts)
        = State.run dialect (.done (.object (collapsedFields (Entries.put k x fields) xs)) stack) ts
  | [], _ => by
      rw [spellFields, collapsedFields]
      exact run_cons ts rfl
  | (l, y) :: ys, hv => by
      rw [AdmitsFields] at hv
      have hfield := run_spell (.object (Entries.put k x fields) l :: stack) false
        (spellFields ys ++ .closeObject :: ts) y hv.1
      have hfields := run_spellFields stack ts (Entries.put k x fields) l (collapsed y) ys hv.2
      rw [spellFields, collapsedFields]
      simp only [List.cons_append, List.append_assoc]
      rw [run_cons _ rfl, run_key, hfield, hfields]
end

end Running

/-! ## Texts of values are read back -/

/-- What was printed is read as the value that was printed, repeated keys merged. -/
theorem read?_print {style : Style} {dialect : Dialect} (hsep : style.Separates) {v : Value}
    (hv : Admits style dialect 0 v) : read? dialect (print style v) = some (collapsed v) := by
  -- Nothing follows the text of a whole value, and nothing is open around it.
  have hscan : Scan dialect (print style v).toList (spell v) := by
    have h : Scan dialect ((write style 0 v).toList ++ []) (spell v ++ []) :=
      scan_write hsep 0 0 (fun _ hc => by simp at hc) (.done rfl) v hv
    rwa [List.append_nil, List.append_nil] at h
  have hrun : State.start.run dialect (spell v) = some (.done (collapsed v) []) := by
    have h := run_spell [] false [] v hv
    rwa [List.append_nil] at h
  unfold read? ofTokens?
  rw [tokens_of_scan hscan]
  show (State.start.run dialect (spell v)).bind State.result? = some (collapsed v)
  rw [hrun]
  rfl

/-! ## Values without repeated keys -/

/-- A key that is new goes to the end. -/
theorem put_eq_append {k : String} {x : Value} {fields rest : Entries Value}
    (hd : (Entries.keys (fields ++ (k, x) :: rest)).Nodup) :
    Entries.put k x fields = fields ++ [(k, x)] := by
  rw [Entries.keys_append] at hd
  -- All keys differ, so the new one is none of those before it.
  have hnew : k ∉ Entries.keys fields := fun hk =>
    (List.nodup_append.mp hd).2.2 k hk k List.mem_cons_self rfl
  clear hd
  induction fields with
  | nil => rfl
  | cons e fields ih =>
      obtain ⟨l, y⟩ := e
      have hne : l ≠ k := fun he => hnew (he ▸ List.mem_cons_self)
      rw [Entries.put, if_neg hne, ih fun hk => hnew (List.mem_cons_of_mem _ hk)]
      rfl

/-- Fields whose keys are new and differ are put behind those that were read. -/
theorem collapsedFields_eq {fields xs : Entries Value}
    (hd : (Entries.keys (fields ++ xs)).Nodup) :
    collapsedFields fields xs = fields ++ Entries.mapValues collapsed xs := by
  induction xs generalizing fields with
  | nil =>
      rw [collapsedFields]
      exact (List.append_nil _).symm
  | cons e xs ih =>
      obtain ⟨k, x⟩ := e
      have hput : Entries.put k (collapsed x) fields = fields ++ [(k, collapsed x)] := by
        refine @put_eq_append k (collapsed x) fields xs ?_
        rw [Entries.keys_append] at hd ⊢
        exact hd
      rw [collapsedFields, hput, ih ?_]
      · simp [Entries.mapValues]
      · rw [Entries.keys_append, Entries.keys_append] at *
        simpa [Entries.keys] using hd

mutual
/-- A value without repeated keys is read as it was. -/
theorem collapsed_eq_self : ∀ v : Value, Distinct v → collapsed v = v
  | .null, _ => by rw [collapsed] <;> simp
  | .bool _, _ => by rw [collapsed] <;> simp
  | .int _, _ => by rw [collapsed] <;> simp
  | .float _, _ => by rw [collapsed] <;> simp
  | .string _, _ => by rw [collapsed] <;> simp
  | .array xs, h => by
      rw [Distinct] at h
      rw [collapsed, collapsedItems_eq_self xs h]
  | .object xs, h => by
      rw [Distinct] at h
      rw [collapsed, collapsedFields_eq (by simpa using h.1), List.nil_append,
        mapValues_collapsed_eq_self xs h.2]

theorem collapsedItems_eq_self : ∀ xs : List Value, DistinctAll xs → collapsedItems xs = xs
  | [], _ => by rw [collapsedItems]
  | x :: xs, h => by
      rw [DistinctAll] at h
      rw [collapsedItems, collapsed_eq_self x h.1, collapsedItems_eq_self xs h.2]

theorem mapValues_collapsed_eq_self :
    ∀ xs : List (String × Value), DistinctFields xs → Entries.mapValues collapsed xs = xs
  | [], _ => rfl
  | (k, x) :: xs, h => by
      rw [DistinctFields] at h
      have hrest := mapValues_collapsed_eq_self xs h.2
      show (k, collapsed x) :: Entries.mapValues collapsed xs = _
      rw [collapsed_eq_self x h.1, hrest]
end

end Routebook.Json
