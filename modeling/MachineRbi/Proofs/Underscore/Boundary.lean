import MachineRbi.Proofs.Underscore.Stem

/-!
# Where words are parted

Each of the two passes of `partWords` is a search from the left for two groups of characters, with
an underscore put between them (`Parts`). The search goes on behind what it has found, yet it hides
no boundary: either pass puts underscores exactly where the neighbours of a place say so
(`Parts.eq_insertWhere_endsAcronym`, `Parts.eq_insertWhere_endsWord`), and so do both together
(`insertWhere_insertWhere`). So the words of a text can be parted in one pass that looks at no more
than three characters at a time (`underscore_eq_parted`).
-/

namespace MachineRbi.Underscore

/-! ## Searching from the left -/

/-- Two groups of characters with an underscore between them afterwards. -/
abbrev Groups := List Char → List Char → Prop

/-- The text with every two groups parted that are found from the left. At each place the first
group is taken as long as it can be, and the search goes on behind the second. -/
inductive Parts (groups : Groups) : List Char → List Char → Prop where
  | nil : Parts groups [] []
  | skip {c : Char} {rest parted : List Char}
      (hnone : ∀ first second later, c :: rest = first ++ second ++ later →
        ¬ groups first second)
      (hrest : Parts groups rest parted) : Parts groups (c :: rest) (c :: parted)
  | part {first second later parted : List Char} (hgroups : groups first second)
      (hlongest : ∀ first' second' later',
        first ++ second ++ later = first' ++ second' ++ later' → groups first' second' →
          first'.length ≤ first.length)
      (hlater : Parts groups later parted) :
      Parts groups (first ++ second ++ later) (first ++ '_' :: second ++ parted)

/-- An acronym or a number, and a capital with a small letter behind it. -/
def AcronymThenWord : Groups := fun first second =>
  first ≠ [] ∧ (∀ c ∈ first, inAcronym c = true) ∧
    ∃ capital small, second = [capital, small] ∧ isCapital capital = true ∧ isSmall small = true

/-- A small letter or a digit, and a capital. -/
def WordThenWord : Groups := fun first second =>
  ∃ a b, first = [a] ∧ second = [b] ∧ (isSmall a || Text.isDecimalDigit a) = true ∧
    isCapital b = true

/-! ## Neighbours -/

/-- The text with an underscore behind each character of which its neighbours say so: the next one,
and the one behind that if there is one. -/
def insertWhere (p : Char → Char → Option Char → Bool) : List Char → List Char
  | a :: b :: rest =>
    if p a b rest.head? then a :: '_' :: insertWhere p (b :: rest)
    else a :: insertWhere p (b :: rest)
  | [c] => [c]
  | [] => []

/-- An acronym or a number ends before a capital with a small letter behind it. -/
def endsAcronym (a b : Char) (next? : Option Char) : Bool :=
  inAcronym a && isCapital b && next?.any isSmall

/-- A small letter or a digit ends a word before a capital. -/
def endsWord (a b : Char) (_ : Option Char) : Bool :=
  (isSmall a || Text.isDecimalDigit a) && isCapital b

/-- A capital starts a word behind a small letter or a digit, and behind a capital if a small letter
comes next. -/
def startsWord (a b : Char) (next? : Option Char) : Bool :=
  isCapital b && (isSmall a || Text.isDecimalDigit a || isCapital a && next?.any isSmall)

/-- An underscore belongs between the character at an index and the next one. -/
def isBoundary (cs : List Char) (i : Nat) : Bool :=
  match cs[i]?, cs[i + 1]? with
  | some a, some b => startsWord a b cs[i + 2]?
  | _, _ => false

/-- The text with an underscore at each boundary. -/
def parted (cs : List Char) : List Char :=
  cs.zipIdx.flatMap fun (c, i) => if isBoundary cs i then [c, '_'] else [c]

/-! ## Classes of characters -/

/-- Capitals, small letters and digits are different characters. -/
theorem classes_apart {c : Char} (h : Rbi.isWordPart c = true) :
    (isCapital c = true → isSmall c = false ∧ Text.isDecimalDigit c = false) ∧
      (isSmall c = true → inAcronym c = false) := by
  have hall : ∀ n < 123,
      (isCapital (Char.ofNat n) = true →
        isSmall (Char.ofNat n) = false ∧ Text.isDecimalDigit (Char.ofNat n) = false) ∧
      (isSmall (Char.ofNat n) = true → inAcronym (Char.ofNat n) = false) := by
    decide +kernel
  have hc := hall c.toNat (toNat_lt_of_isWordPart h)
  rwa [Char.ofNat_toNat] at hc

/-- Letters are parts of words. -/
theorem isWordPart_of_isLetter {c : Char} (h : (isCapital c || isSmall c) = true) :
    Rbi.isWordPart c = true := by
  have halpha : c.isAlpha = true := h
  simp [Rbi.isWordPart, Char.isAlphanum, halpha]

/-- A capital is neither a small letter nor a digit. -/
theorem endsWord_of_isCapital {a : Char} (h : isCapital a = true) (b : Char)
    (next? : Option Char) : endsWord a b next? = false := by
  obtain ⟨hsmall, hdigit⟩ := (classes_apart (isWordPart_of_isLetter (by simp [h]))).1 h
  simp [endsWord, hsmall, hdigit]

/-- No small letter is part of an acronym. -/
theorem isSmall_of_inAcronym {c : Char} (h : inAcronym c = true) : isSmall c = false := by
  refine Bool.eq_false_iff.mpr fun hsmall => ?_
  rw [(classes_apart (isWordPart_of_isLetter (by simp [hsmall]))).2 hsmall] at h
  cases h

/-- A capital is part of an acronym. -/
theorem inAcronym_of_isCapital {c : Char} (h : isCapital c = true) : inAcronym c = true := by
  simp [inAcronym, h]

/-! ## Each pass by its neighbours -/

/-- The first character stays the first. -/
theorem head?_insertWhere (p : Char → Char → Option Char → Bool) (cs : List Char) :
    (insertWhere p cs).head? = cs.head? := by
  fun_cases insertWhere p cs <;> rfl

/-- Nothing is put behind a character that the neighbours do not name. -/
theorem insertWhere_cons {p : Char → Char → Option Char → Bool} {c : Char} {rest : List Char}
    (h : ∀ b later, rest = b :: later → p c b later.head? = false) :
    insertWhere p (c :: rest) = c :: insertWhere p rest := by
  cases rest with
  | nil => rfl
  | cons b later => rw [insertWhere, if_neg (by simp [h b later rfl])]

/-- An acronym with a word behind it is parted before the capital of the word. -/
theorem insertWhere_endsAcronym {first : List Char} {capital small : Char}
    (hnonempty : first ≠ []) (hfirst : ∀ c ∈ first, inAcronym c = true)
    (hcapital : isCapital capital = true) (hsmall : isSmall small = true) (later : List Char) :
    insertWhere endsAcronym (first ++ capital :: small :: later) =
      first ++ '_' :: capital :: small :: insertWhere endsAcronym later := by
  have hnot : inAcronym small = false :=
    Bool.eq_false_iff.mpr fun hin => by simp [isSmall_of_inAcronym hin] at hsmall
  have hlow : isCapital small = false :=
    Bool.eq_false_iff.mpr fun hup => by simp [inAcronym_of_isCapital hup] at hnot
  have hword : insertWhere endsAcronym (capital :: small :: later) =
      capital :: small :: insertWhere endsAcronym later := by
    rw [insertWhere_cons, insertWhere_cons]
    · simp [endsAcronym, hnot]
    · rintro b rest heq
      obtain ⟨rfl, rfl⟩ := List.cons_eq_cons.mp heq
      simp [endsAcronym, hlow]
  induction first with
  | nil => exact (hnonempty rfl).elim
  | cons a rest ih =>
      rw [List.forall_mem_cons] at hfirst
      cases rest with
      | nil =>
          show insertWhere endsAcronym (a :: capital :: small :: later) = _
          rw [insertWhere, if_pos (by simp [endsAcronym, hfirst.1, hcapital, hsmall]), hword]
          rfl
      | cons b others =>
          -- What comes next but one is still in the acronym or the capital, so no small letter.
          have hnext : endsAcronym a b (others ++ capital :: small :: later).head? = false := by
            have hin : ∀ c ∈ (others ++ capital :: small :: later).head?, inAcronym c = true := by
              cases others with
              | nil => simp [inAcronym_of_isCapital hcapital]
              | cons c more => simpa using hfirst.2 c (by simp)
            cases hhead : (others ++ capital :: small :: later).head? with
            | none => simp [endsAcronym]
            | some c =>
                rw [hhead] at hin
                simp [endsAcronym, isSmall_of_inAcronym (hin c rfl)]
          show insertWhere endsAcronym (a :: (b :: others ++ capital :: small :: later)) =
            a :: (b :: others ++ '_' :: capital :: small :: insertWhere endsAcronym later)
          rw [insertWhere_cons, ih (by simp) hfirst.2]
          rintro b' more heq
          obtain ⟨rfl, rfl⟩ := List.cons_eq_cons.mp heq
          exact hnext

/-- The search for acronyms puts underscores where the neighbours end an acronym. -/
theorem Parts.eq_insertWhere_endsAcronym {cs result : List Char}
    (h : Parts AcronymThenWord cs result) : result = insertWhere endsAcronym cs := by
  induction h with
  | nil => rfl
  | @skip c rest parted hnone hrest ih =>
      rw [ih, insertWhere_cons]
      rintro b later rfl
      refine Bool.eq_false_iff.mpr fun hends => ?_
      simp only [endsAcronym, Bool.and_eq_true, Option.any_eq_true] at hends
      obtain ⟨⟨hin, hcapital⟩, small, hhead, hsmall⟩ := hends
      obtain ⟨others, rfl⟩ := List.head?_eq_some_iff.mp hhead
      exact hnone [c] [b, small] others rfl
        ⟨by simp, by simpa using hin, b, small, rfl, hcapital, hsmall⟩
  | @part first second later parted hgroups hlongest hlater ih =>
      obtain ⟨hnonempty, hfirst, capital, small, rfl, hcapital, hsmall⟩ := hgroups
      have hparted := insertWhere_endsAcronym hnonempty hfirst hcapital hsmall later
      simpa [ih] using hparted.symm

/-- The search for words puts underscores where the neighbours end a word. -/
theorem Parts.eq_insertWhere_endsWord {cs result : List Char}
    (h : Parts WordThenWord cs result) : result = insertWhere endsWord cs := by
  induction h with
  | nil => rfl
  | @skip c rest parted hnone hrest ih =>
      rw [ih, insertWhere_cons]
      rintro b later rfl
      refine Bool.eq_false_iff.mpr fun hends => ?_
      simp only [endsWord, Bool.and_eq_true] at hends
      exact hnone [c] [b] later rfl ⟨c, b, rfl, rfl, hends.1, hends.2⟩
  | @part first second later parted hgroups hlongest hlater ih =>
      obtain ⟨a, b, rfl, rfl, ha, hb⟩ := hgroups
      show _ = insertWhere endsWord (a :: b :: later)
      rw [ih, insertWhere, if_pos (by simp [endsWord, ha, hb]), insertWhere_cons]
      · rfl
      · exact fun c more _ => endsWord_of_isCapital hb c more.head?

/-! ## The passes search from the left -/

/-- Two groups that start in a run of acronym characters end right behind the run. -/
theorem AcronymThenWord.ends_run {run first second later rest : List Char} {c : Char}
    (h : AcronymThenWord first second) (hrun : ∀ x ∈ run, inAcronym x = true)
    (hc : inAcronym c = false) (htext : run ++ c :: rest = first ++ second ++ later) :
    ∃ last, run = first ++ [last] ∧ second = [last, c] ∧ later = rest := by
  obtain ⟨-, hfirst, capital, small, rfl, hcapital, hsmall⟩ := h
  have hforeign : c ≠ capital := by
    rintro rfl
    rw [inAcronym_of_isCapital hcapital] at hc
    cases hc
  rw [List.append_assoc, List.append_eq_append_iff] at htext
  rcases htext with ⟨more, rfl, htail⟩ | ⟨more, rfl, htail⟩
  · -- The first group would go on over the end of the run.
    cases more with
    | nil => exact (hforeign (List.cons_eq_cons.mp htail).1).elim
    | cons x others =>
        rw [hfirst c (by simp [(List.cons_eq_cons.mp htail).1])] at hc
        cases hc
  · cases more with
    | nil => exact (hforeign (List.cons_eq_cons.mp htail).1.symm).elim
    | cons x others =>
        cases others with
        | nil =>
            simp only [List.cons_append, List.nil_append, List.cons.injEq] at htail
            obtain ⟨rfl, rfl, rfl⟩ := htail
            exact ⟨capital, rfl, rfl, rfl⟩
        | cons y more =>
            -- The small letter would be in the run.
            simp only [List.cons_append, List.nil_append, List.cons.injEq] at htail
            rw [isSmall_of_inAcronym (hrun small (by simp [htail.2.1]))] at hsmall
            cases hsmall

/-- Characters are passed over if no two groups start at any of them. -/
theorem Parts.skip_all {groups : Groups} {run rest parted : List Char}
    (hnone : ∀ front back, run = front ++ back → back ≠ [] → ∀ first second later,
      back ++ rest = first ++ second ++ later → ¬ groups first second)
    (hrest : Parts groups rest parted) : Parts groups (run ++ rest) (run ++ parted) := by
  induction run with
  | nil => exact hrest
  | cons c others ih =>
      refine .skip (hnone [] (c :: others) rfl (by simp)) (ih ?_)
      intro front back hsplit
      exact hnone (c :: front) back (by rw [hsplit]; rfl)

/-- An acronym is closed before its last capital if a small letter comes next and something stands
before that, and otherwise it stays whole. -/
theorem closeAcronym_cases (reversed : List Char) (next : Char) :
    (∃ front last, front ≠ [] ∧ reversed.reverse = front ++ [last] ∧ isCapital last = true ∧
        isSmall next = true ∧ closeAcronym reversed next = front ++ ['_', last]) ∨
      (closeAcronym reversed next = reversed.reverse ∧
        ∀ front last, front ≠ [] → reversed.reverse = front ++ [last] → isCapital last = true →
          isSmall next = false) := by
  unfold closeAcronym
  split
  next last before earlier =>
    have hreverse : (last :: before :: earlier).reverse = (before :: earlier).reverse ++ [last] :=
      List.reverse_cons
    by_cases hclose : (isCapital last && isSmall next) = true
    · rw [if_pos hclose]
      rw [Bool.and_eq_true] at hclose
      exact .inl ⟨_, last, by simp, hreverse, hclose.1, hclose.2, rfl⟩
    · rw [if_neg hclose]
      refine .inr ⟨rfl, fun front other _ hsplit hcapital => ?_⟩
      rw [hreverse] at hsplit
      obtain ⟨-, hlast⟩ := List.append_inj' hsplit rfl
      obtain rfl := List.singleton_inj.mp hlast
      simpa [hcapital] using hclose
  next hshort =>
    refine .inr ⟨rfl, fun front last hfront hsplit _ => ?_⟩
    have hreversed : reversed = last :: front.reverse := by
      rw [← List.reverse_reverse reversed, hsplit, List.reverse_concat]
    obtain ⟨before, earlier, hcons⟩ := List.exists_cons_of_ne_nil
      (fun hnil => hfront (List.reverse_eq_nil_iff.mp hnil) : front.reverse ≠ [])
    exact (hshort last before earlier (by rw [hreversed, hcons])).elim

/-- Breaking acronyms is the search for acronyms with words behind them. -/
theorem parts_breakAcronyms (reversed cs : List Char)
    (hrun : ∀ c ∈ reversed, inAcronym c = true) :
    Parts AcronymThenWord (reversed.reverse ++ cs) (breakAcronyms reversed cs) := by
  induction cs generalizing reversed with
  | nil =>
      have hskipped : Parts AcronymThenWord (reversed.reverse ++ []) (reversed.reverse ++ []) := by
        refine .skip_all ?_ .nil
        rintro front back hsplit - first second later htext ⟨-, -, _, small, rfl, -, hsmall⟩
        have hmem : small ∈ reversed.reverse := by
          rw [hsplit, ← List.append_nil back, htext]
          simp
        rw [isSmall_of_inAcronym (hrun small (List.mem_reverse.mp hmem))] at hsmall
        cases hsmall
      rwa [List.append_nil] at hskipped ⊢
  | cons c rest ih =>
      unfold breakAcronyms
      cases hc : inAcronym c with
      | true =>
          rw [if_pos rfl]
          have hlonger := ih (c :: reversed) (by simpa [hc] using hrun)
          rwa [List.reverse_cons, List.append_assoc] at hlonger
      | false =>
          rw [if_neg Bool.false_ne_true]
          have hrest := ih [] (by simp)
          have hin : ∀ x ∈ reversed.reverse, inAcronym x = true :=
            fun x hmem => hrun x (List.mem_reverse.mp hmem)
          rcases closeAcronym_cases reversed c with
            ⟨front, last, hfront, hsplit, hcapital, hsmall, hclosed⟩ | ⟨hwhole, hopen⟩
          · rw [hclosed, hsplit]
            rw [hsplit] at hin
            have hfound : AcronymThenWord front [last, c] :=
              ⟨hfront, fun x hmem => hin x (List.mem_append_left _ hmem), last, c, rfl, hcapital,
                hsmall⟩
            have hlongest : ∀ first second later,
                front ++ [last, c] ++ rest = first ++ second ++ later →
                  AcronymThenWord first second → first.length ≤ front.length := by
              intro first second later htext hgroups
              have htext' : (front ++ [last]) ++ c :: rest = first ++ second ++ later := by
                simpa using htext
              obtain ⟨other, hsame, -, -⟩ := hgroups.ends_run hin hc htext'
              exact Nat.le_of_eq (congrArg List.length (List.append_inj' hsame rfl).1).symm
            simpa using Parts.part hfound hlongest hrest
          · rw [hwhole]
            refine .skip_all ?_ (.skip ?_ hrest)
            · intro front back hsplit hback first second later htext hgroups
              have hbackIn : ∀ x ∈ back, inAcronym x = true :=
                fun x hmem => hin x (by rw [hsplit]; exact List.mem_append_right _ hmem)
              obtain ⟨last, rfl, rfl, -⟩ := hgroups.ends_run hbackIn hc htext
              obtain ⟨hnonempty, -, _, _, heq, hcapital, hsmall⟩ := hgroups
              simp only [List.cons.injEq, and_true] at heq
              rw [← heq.1] at hcapital
              rw [← heq.2, hopen (front ++ first) last (by simp [hnonempty])
                (by rw [hsplit, List.append_assoc]) hcapital] at hsmall
              cases hsmall
            · intro first second later htext hgroups
              have hnone : ∀ x ∈ ([] : List Char), inAcronym x = true := by simp
              obtain ⟨last, hsplit, -⟩ := hgroups.ends_run hnone hc htext
              simp at hsplit

/-- Breaking words is the search for words with words behind them. -/
theorem parts_breakWords (cs : List Char) : Parts WordThenWord cs (breakWords cs) := by
  fun_induction breakWords cs with
  | case1 a b rest hbreak ih =>
      rw [Bool.and_eq_true] at hbreak
      have hfound : WordThenWord [a] [b] := ⟨a, b, rfl, rfl, hbreak.1, hbreak.2⟩
      refine .part hfound ?_ ih
      rintro first second later - ⟨x, y, rfl, -, -, -⟩
      exact Nat.le_refl 1
  | case2 a b rest hbreak ih =>
      refine .skip ?_ ih
      rintro first second later htext ⟨x, y, rfl, rfl, hx, hy⟩
      simp only [List.cons_append, List.nil_append, List.cons.injEq] at htext
      obtain ⟨rfl, rfl, -⟩ := htext
      simp [hx, hy] at hbreak
  | case3 c =>
      refine .skip ?_ .nil
      rintro first second later htext ⟨x, y, rfl, rfl, -, -⟩
      simp at htext
  | case4 => exact .nil

/-! ## Both passes -/

/-- What starts a word ends an acronym before it or ends a word, and nothing else does. -/
theorem startsWord_eq (a b : Char) (next? after? : Option Char) :
    startsWord a b next? = (endsAcronym a b next? || endsWord a b after?) := by
  unfold startsWord endsAcronym endsWord inAcronym
  cases isCapital a <;> cases isCapital b <;> cases isSmall a <;>
    cases Text.isDecimalDigit a <;> cases next?.any isSmall <;> rfl

/-- Putting underscores where acronyms end and then where words end puts them where words start. -/
theorem insertWhere_insertWhere (cs : List Char) :
    insertWhere endsWord (insertWhere endsAcronym cs) = insertWhere startsWord cs := by
  induction cs with
  | nil => rfl
  | cons a tail ih =>
      cases tail with
      | nil => rfl
      | cons b rest =>
          have hhead := head?_insertWhere endsAcronym (b :: rest)
          obtain ⟨others, hothers⟩ := List.head?_eq_some_iff.mp hhead
          rw [insertWhere, insertWhere]
          cases hends : endsAcronym a b rest.head? with
          | true =>
              -- No word ends at the new underscore, on either side of it.
              have hstarts := startsWord_eq a b rest.head? none
              rw [hends, Bool.true_or] at hstarts
              rw [if_pos rfl, if_pos hstarts, insertWhere_cons, insertWhere_cons, ih]
              · intro c later _
                exact Bool.and_eq_false_imp.mpr fun h => absurd h (by decide)
              · rintro c later heq
                rw [← (List.cons_eq_cons.mp heq).1]
                exact Bool.and_eq_false_imp.mpr fun _ => by decide
          | false =>
              have hstarts := startsWord_eq a b rest.head? others.head?
              rw [hends, Bool.false_or] at hstarts
              rw [if_neg Bool.false_ne_true, hothers, insertWhere, ← hothers, ih, hstarts]

/-- Whether the first character ends at a boundary is told by its neighbours, and the boundaries
behind it are those of the rest. -/
theorem parted_cons (c : Char) (rest : List Char) :
    parted (c :: rest) = (if isBoundary (c :: rest) 0 then [c, '_'] else [c]) ++ parted rest := by
  unfold parted
  rw [List.zipIdx_cons', List.flatMap_cons, List.flatMap_map]
  rfl

/-- One pass over the neighbours puts underscores at the boundaries. -/
theorem insertWhere_startsWord (cs : List Char) : insertWhere startsWord cs = parted cs := by
  induction cs with
  | nil => rfl
  | cons a tail ih =>
      rw [parted_cons, ← ih]
      cases tail with
      | nil => rfl
      | cons b rest =>
          have hfirst : isBoundary (a :: b :: rest) 0 = startsWord a b rest.head? := by
            cases rest <;> rfl
          rw [insertWhere, hfirst]
          cases startsWord a b rest.head? <;> rfl

/-- Both passes together put underscores at the boundaries. -/
theorem partWords_eq_parted (cs : List Char) : partWords cs = parted cs := by
  have hacronyms := (parts_breakAcronyms [] cs (by simp)).eq_insertWhere_endsAcronym
  have hwords := (parts_breakWords (breakAcronyms [] cs)).eq_insertWhere_endsWord
  rw [partWords, hwords, hacronyms, List.reverse_nil, List.nil_append, insertWhere_insertWhere,
    insertWhere_startsWord]

/-- The two searches for words make one text of another: the one with an underscore at each
boundary. -/
theorem parts_parts_iff {cs result : List Char} :
    (∃ middle, Parts AcronymThenWord cs middle ∧ Parts WordThenWord middle result) ↔
      result = parted cs := by
  constructor
  · rintro ⟨middle, hacronyms, hwords⟩
    rw [hwords.eq_insertWhere_endsWord, hacronyms.eq_insertWhere_endsAcronym,
      insertWhere_insertWhere, insertWhere_startsWord]
  · rintro rfl
    refine ⟨breakAcronyms [] cs, parts_breakAcronyms [] cs (by simp), ?_⟩
    rw [← partWords_eq_parted]
    exact parts_breakWords _

/-- With slashes for double colons, the two searches for words put one underscore at each boundary
and nowhere else. The stem of an id is what they make of it, with hyphens as underscores and in
lower case. -/
theorem underscore_eq_parted (modelId : String) :
    (∀ result, (∃ middle, Parts AcronymThenWord (slashScopes modelId.toList) middle ∧
        Parts WordThenWord middle result) ↔ result = parted (slashScopes modelId.toList)) ∧
      partWords (slashScopes modelId.toList) = parted (slashScopes modelId.toList) ∧
      (underscore modelId).toList =
        Text.lowerChars ((parted (slashScopes modelId.toList)).map joinHyphen) := by
  refine ⟨fun _ => parts_parts_iff, partWords_eq_parted _, ?_⟩
  rw [← partWords_eq_parted]
  exact underscore_toList modelId

example : parted "API2Key::XMLHttp".toList = "API2_Key::XML_Http".toList := by decide

end MachineRbi.Underscore
