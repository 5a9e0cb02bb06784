import LineShell.Proofs.Session.Reachable

/-! # The history command — the newest entries under their own numbers

    The command numbers the entries of the history and shows them all, or
    the newest of them.  Where it starts, what it counts from and how wide
    its column is are computed apart.  They agree: a shorter listing is the
    end of the full one, row by row, whatever count it was asked for
    (`Run.history_shows_newest`), and no number is wider than the column,
    as the column is made for the widest of them. -/

namespace LineShell

open LineShell.Text

/-! ## Counts -/

namespace Decimal

/-- Decimal digits, most significant first, and the number that they stand
    for. -/
inductive Denotes : List Char → Nat → Prop where
  | digit {c : Char} {d : Nat} (hc : decimalValue? c = some d) :
      Denotes [c] d
  | next {cs : List Char} {n : Nat} {c : Char} {d : Nat}
      (hcs : Denotes cs n) (hc : decimalValue? c = some d) :
      Denotes (cs ++ [c]) (10 * n + d)

theorem ofDigits_append (digits : List Nat) (d : Nat) :
    ofDigits (digits ++ [d]) = 10 * ofDigits digits + d := by
  rw [ofDigits, List.foldl_append]
  rfl

namespace Denotes

variable {cs : List Char} {n : Nat}

/-- The values of the digits, and the number that they add up to. -/
theorem values (h : Denotes cs n) :
    ∃ digits, cs.mapM decimalValue? = some digits ∧ digits ≠ [] ∧
      digits.length = cs.length ∧ ofDigits digits = n := by
  induction h with
  | @digit c d hc => exact ⟨[d], by simp [hc], by simp, rfl, by simp [ofDigits]⟩
  | @next cs n c d _ hc ih =>
      obtain ⟨digits, hdigits, -, hlength, hvalue⟩ := ih
      refine ⟨digits ++ [d], ?_, by simp, by simp [hlength], ?_⟩
      · rw [List.mapM_append, hdigits]
        simp [hc]
      · rw [ofDigits_append, hvalue]

theorem digitLike (h : Denotes cs n) : ∀ c ∈ cs, isDigitLike c = true := by
  induction h with
  | digit hc => simp [isDigitLike, hc]
  | next _ hc ih =>
      intro c hmem
      rcases List.mem_append.mp hmem with hbefore | hlast
      · exact ih c hbefore
      · rw [List.mem_singleton.mp hlast, isDigitLike, hc]
        rfl

theorem ne_nil (h : Denotes cs n) : cs ≠ [] := by
  cases h <;> simp

/-- A text of no more digits than the limit is read as its number. -/
theorem count {text : String} (h : Denotes text.toList n)
    (hlimit : text.toList.length ≤ digitLimit) : count? text = .ok n := by
  obtain ⟨digits, hdigits, hne, hlength, hvalue⟩ := h.values
  rw [count?, hdigits]
  cases digits with
  | nil => exact absurd rfl hne
  | cons d rest =>
      simp only
      rw [if_neg (by omega), hvalue]

theorem isDigitText {text : String} (h : Denotes text.toList n) :
    isDigitText text = true := by
  have hne : text ≠ "" := fun hempty => h.ne_nil (by rw [hempty]; rfl)
  rw [Decimal.isDigitText, Bool.and_eq_true, List.all_eq_true]
  exact ⟨by simpa using hne, h.digitLike⟩

end Denotes

/-- A smaller number is written no longer. -/
theorem length_toString_mono {m n : Nat} (h : m ≤ n) :
    (toString m).length ≤ (toString n).length := by
  rw [Nat.toString_eq_repr, Nat.toString_eq_repr]
  have hpos : 0 < n.repr.length := Nat.length_repr_pos
  rw [Nat.length_repr_le_iff hpos]
  exact Nat.lt_of_le_of_lt h ((Nat.length_repr_le_iff hpos).mp (Nat.le_refl _))

end Decimal

/-! ## Rows -/

namespace History

/-- A row: a position at the right end of a column, two blanks and the
    entry that stands there.  The blanks and the position fill the column
    exactly. -/
def IsRow (width position : Nat) (entry row : String) : Prop :=
  ∃ blanks, row = String.ofList (List.replicate blanks ' ') ++
      toString position ++ "  " ++ entry ∧
    blanks + (toString position).length = width

/-- A full listing: a row for every entry, numbered from one, in a column
    as wide as the number of entries. -/
structure IsListing (entries rows : List String) : Prop where
  length_eq : rows.length = entries.length
  isRow : ∀ i entry row, entries[i]? = some entry → rows[i]? = some row →
    IsRow (toString entries.length).length (i + 1) entry row

/-- What is answered for some rows: nothing when there are none, and else
    a text with a line for each. -/
inductive Shows : List String → Value → Prop where
  | nothing : Shows [] .null
  | lines {rows : List String} (hrows : rows ≠ []) :
      Shows rows (.text ("\n".intercalate rows))

/-- The rows of all entries. -/
def rows (entries : List String) : List String :=
  entries.mapIdx fun index entry =>
    rightAligned (toString entries.length).length (toString (index + 1)) ++
      "  " ++ entry

/-- What the command answers with what `listing` gives it. -/
def listingValue (listed : Option String) : Value :=
  (listed.map Value.text).getD .null

variable {entries : List String}

theorem length_rows : (rows entries).length = entries.length :=
  List.length_mapIdx

/-- No number of an entry is wider than the column. -/
theorem isListing_rows : IsListing entries (rows entries) where
  length_eq := length_rows
  isRow := by
    intro i entry row hentry hrow
    have hi : i < entries.length := (List.getElem?_eq_some_iff.mp hentry).1
    have hfits := Decimal.length_toString_mono (Nat.succ_le_of_lt hi)
    rw [rows, List.getElem?_mapIdx, hentry] at hrow
    exact ⟨_, (Option.some.inj hrow).symm, Nat.sub_add_cancel hfits⟩

/-- A listing from a position on has the rows of the full one from there
    on. -/
theorem listing_shows (start : Nat) :
    Shows ((rows entries).drop start)
      (listingValue (listing entries start)) := by
  -- numbers count from the start of the history, wherever a listing starts
  have hrows : ((entries.drop start).mapIdx fun index entry =>
      rightAligned (toString entries.length).length
        (toString (start + index + 1)) ++ "  " ++ entry) =
      (rows entries).drop start := by
    refine List.ext_getElem (by simp [rows]) ?_
    intro i _ _
    simp [rows]
  rw [listing, hrows]
  cases hdrop : (rows entries).drop start with
  | nil => exact .nothing
  | cons row rest => exact .lines (List.cons_ne_nil row rest)

/-- The newest entries are as many as were asked for, if there are so
    many. -/
theorem length_drop_startOfNewest (n : Nat) :
    ((rows entries).drop (startOfNewest entries n)).length =
      min n (rows entries).length := by
  rw [List.length_drop, length_rows, startOfNewest]
  omega

end History

/-! ## The command -/

namespace Run

open History

variable {s : Session} {c : Class} {depth : Nat} {frame : Frame}

theorem filterMap_asText_texts (entries : List String) :
    (((Value.texts entries).items?.getD []).filterMap Value.asText?) =
      entries := by
  show (entries.map Value.text).filterMap Value.asText? = entries
  rw [List.filterMap_map]
  exact List.filterMap_some

theorem perform_historyFrom (start : List String → Nat) :
    perform (executeWithin depth) frame (BaseShell.historyFrom start) s =
      some (.ok (listingValue
        (listing s.reader.history (start s.reader.history))), s) := by
  have hanswer : answer (executeWithin depth) frame (.reader .history) s =
      some (.ok (.texts s.reader.history), s) := rfl
  rw [BaseShell.historyFrom, Program.ask, perform,
    bind_ok (attempt_eq hanswer)]
  simp only [filterMap_asText_texts]
  cases listing s.reader.history (start s.reader.history) <;> rfl

/-- A call of the command that every shell comes with. -/
theorem callShell_history (hc : s.shell = some c)
    (hd : c.lookup? "do_history" =
      OrderedMap.find "do_history" BaseShell.members)
    {args : List Value} (start : List String → Nat)
    (hargs : BaseShell.history args = BaseShell.historyFrom start) :
    callShell (executeWithin (depth + 1)) "do_history" args s =
      some (.ok (listingValue
        (listing s.reader.history (start s.reader.history))), s) := by
  obtain ⟨rest, hcall⟩ := callShell_variadic hc hd args
  rw [hcall, hargs, perform_historyFrom]

theorem history_of_denotes {text : String} {n : Nat}
    (h : Decimal.Denotes text.toList n)
    (hlimit : text.toList.length ≤ Decimal.digitLimit) (more : List Value) :
    BaseShell.history (.text text :: more) =
      BaseShell.historyFrom fun entries => startOfNewest entries n := by
  show (if Decimal.isDigitText text = true then _ else _) = _
  rw [if_pos h.isDigitText, h.count hlimit]

/-- **STABLE NUMBERS**: asked for the newest entries, the history command
    shows the end of what it shows in full: as many rows as were asked
    for, if there are so many, each with the position that its entry has
    in the whole history.  It answers nothing just when there are no
    rows. -/
theorem history_shows_newest (depth : Nat) (hc : s.shell = some c)
    (hd : c.lookup? "do_history" =
      OrderedMap.find "do_history" BaseShell.members) :
    ∃ rows v, IsListing s.reader.history rows ∧ Shows rows v ∧
      callShell (executeWithin (depth + 1)) "do_history" [] s =
        some (.ok v, s) ∧
      ∀ (text : String) (n : Nat) (more : List Value),
        Decimal.Denotes text.toList n →
        text.toList.length ≤ Decimal.digitLimit →
        ∃ older newest w, rows = older ++ newest ∧
          newest.length = min n rows.length ∧ Shows newest w ∧
          callShell (executeWithin (depth + 1)) "do_history"
            (.text text :: more) s = some (.ok w, s) := by
  refine ⟨History.rows s.reader.history, _, isListing_rows,
    listing_shows 0, callShell_history hc hd (fun _ => 0) rfl, ?_⟩
  intro text n more htext hlimit
  let start := startOfNewest s.reader.history n
  exact ⟨_, _, _, (List.take_append_drop start _).symm,
    length_drop_startOfNewest n, listing_shows start,
    callShell_history hc hd (fun entries => startOfNewest entries n)
      (history_of_denotes htext hlimit more)⟩

/-- A shell with ten lines in its history. -/
def recallingSession : Session :=
  { Session.bare default default default with
    shell := some BaseShell.shellClass
    reader := { (default : Reader) with
      history := ["a", "b", "c", "d", "e", "f", "g", "h", "i", "j"] } }

/-- The newest two of ten entries. -/
theorem history_shows_newest_two :
    recallingSession.shell = some BaseShell.shellClass ∧
    Decimal.Denotes "2".toList 2 ∧
    ∃ older newest w,
      IsListing recallingSession.reader.history (older ++ newest) ∧
      newest.length = 2 ∧ Shows newest w ∧
      callShell (executeWithin 1) "do_history" [.text "2"]
        recallingSession = some (.ok w, recallingSession) := by
  have htwo : Decimal.Denotes "2".toList 2 := .digit (by decide)
  obtain ⟨rows, _, hlisting, -, -, hnewest⟩ :=
    history_shows_newest (s := recallingSession) 0 rfl rfl
  obtain ⟨older, newest, w, rfl, hlength, hshows, hcall⟩ :=
    hnewest "2" 2 [] htwo (by decide)
  have hten : (older ++ newest).length = 10 := hlisting.length_eq
  exact ⟨rfl, htwo, older, newest, w, hlisting, by omega, hshows, hcall⟩

end Run

end LineShell
