import LineShell.Proofs.Session.Conduct

/-! # The shell's own faults — they are plain

    Reading a line that is no text, reading and writing files, registering
    an extension, making a prompt: all of these can fail, and where the
    shell itself is the one that fails, it does so with a plain fault.
    Signals, and faults that cannot be answered, come from code and from
    sources only. -/

namespace LineShell

/-- The value of a result, or its fault, is of a kind. -/
def Result {α : Type} (V : α → Prop) (F : Fault → Prop) :
    Except Fault α → Prop
  | .ok a => V a
  | .error f => F f

/-- Any value at all. -/
abbrev Whatever {α : Type} (_ : α) : Prop := True

/-! ## Lines -/

section Items

variable {me : Identity} {f : Fault}

theorem map_error_eq {ε α β : Type} {g : α → β} {r : Except ε α} {e : ε}
    (h : r.map g = .error e) : r = .error e := by
  cases r with
  | ok a => cases h
  | error e' =>
      cases h
      rfl

theorem Line.join_plain {index : Nat} {items : List Value}
    (h : ItemDraft.word.join me index items = .error (.fault f)) :
    f.isPlain = true := by
  induction items generalizing index with
  | nil => cases h
  | cons v rest ih =>
      simp only [ItemDraft.word.join] at h
      split at h
      · exact ih (map_error_eq h)
      · cases h
        rfl

theorem Line.word_plain {d : ItemDraft}
    (h : d.word me = .error (.fault f)) : f.isPlain = true :=
  join_plain (map_error_eq h)

/-- Reading a list as a line fails with plain faults only. -/
theorem Line.readItems_plain {mode : ItemMode} {items : List Value}
    (h : readItems me mode items = .error (.fault f)) :
    f.isPlain = true := by
  fun_induction readItems me mode items
  all_goals first
    | cases h; done
    | cases h; rfl
    -- the rest of the line fails, or the word that ends here
    | rename_i ih; exact ih h
    | rename_i ih; exact ih (map_error_eq h)
    | exact word_plain (map_error_eq h)
    | rename_i hword; cases h; exact word_plain hword

/-- So does reading whatever stands in place of a line. -/
theorem Line.ofValue_plain {v : Value} (h : ofValue me v = .error f) :
    f.isPlain = true := by
  simp only [ofValue] at h
  split at h
  · split at h
    · cases h
    · cases h
      rfl
  · split at h
    · split at h
      · cases h
      · rename_i hitems
        cases h
        exact readItems_plain hitems
      · cases h
        rfl
    · cases h
    · cases h
      rfl
    · cases h
      rfl

end Items

/-! ## Files -/

theorem Path.expandHome_plain {homes : Homes} {p : Path} {f : Fault}
    (h : p.expandHome homes = .error f) : f.isPlain = true := by
  rw [Path.expandHome] at h
  split at h
  · cases h
  · cases h
    rfl

theorem FileTree.present_plain {files : FileTree} {p : Path} {f : Fault}
    (h : files.present p = .error f) : f.isPlain = true := by
  rw [FileTree.present] at h
  split at h
  · cases h
  · split at h <;> cases h
    rfl

/-- A history file that cannot be read ends in a plain fault, if in
    one at all. -/
theorem History.load_plain {files : FileTree} {homes : Homes}
    {path : Option Path} {f : Fault}
    (h : (load files homes path).1 = .error f) : f.isPlain = true := by
  simp only [load] at h
  split at h
  · cases h
  · split at h
    · rename_i hp
      cases h
      exact Path.expandHome_plain hp
    · split at h
      · rename_i hp
        cases h
        exact FileTree.present_plain hp
      · cases h
      · split at h
        · cases h
        · rw [textOfBytes] at h
          split at h <;> cases h
          rfl

/-- So does one that cannot be written. -/
theorem History.save_plain {files : FileTree} {homes : Homes}
    {entries : List String} {limit : Int} {path : Option Path} {f : Fault}
    (h : (save files homes entries limit path).2.1 = .error f) :
    f.isPlain = true := by
  simp only [save] at h
  split at h
  · cases h
  · split at h
    · rename_i hp
      cases h
      exact Path.expandHome_plain hp
    · split at h
      · cases h
        rfl
      · split at h
        · cases h
        · split at h
          · cases h
            rfl
          · split at h <;> cases h

/-! ## Extensions, programs and prompts -/

theorem Extensions.addMembers_plain {e : Extensions} {c : Class}
    {name : String} {serial : Nat} {members : List (String × HookMark)}
    {f : Fault} (h : (e.addMembers c name serial members).1 = .error f) :
    f.isPlain = true := by
  induction members generalizing e with
  | nil => cases h
  | cons entry rest ih =>
      obtain ⟨member, mark⟩ := entry
      rw [Extensions.addMembers] at h
      rcases addImplementation_added (hookOf member mark)
          ⟨name, serial, c.bind member, mark⟩ with hok | hbad
      · rw [hok e] at h
        exact ih h
      · rw [hbad e] at h
        cases h
        rfl

/-- An extension that is refused is refused with a plain fault. -/
theorem Extensions.register_plain {e : Extensions} {c : Class}
    {name : String} {serial : Nat} {label : String} {f : Fault}
    (h : (e.register c name serial label).1 = .error f) :
    f.isPlain = true := by
  rw [Extensions.register] at h
  split at h
  · cases h
    rfl
  · cases h
    rfl
  · split at h
    · cases h
      rfl
    · exact addMembers_plain h

variable {k : Conduct}

theorem Launch.result_report {l : Launch} (h : l.Keeps k) :
    Result Whatever k.raises l.report := by
  cases l with
  | finished out err code =>
      simp only [report]
      split
      · trivial
      · split <;> trivial
  | failed message => trivial
  | raised f => exact h

theorem Prompt.result_ofPlain (me : Identity) (p : PlainPrompt)
    (args : List Value) :
    Result (Prompt.Keeps k) k.raises (Prompt.ofPlain me p args) := by
  cases p with
  | literal text =>
      simp only [Prompt.ofPlain]
      split
      · trivial
      · exact k.plain rfl
  | value v =>
      simp only [Prompt.ofPlain]
      split
      · split
        · trivial
        · exact k.plain rfl
      · exact k.plain rfl

theorem Prompt.result_ofCode {code : List Value → Program}
    (hc : ∀ args, (code args).Keeps k) (bound : Option (List Value))
    (args : List Value) :
    Result (Prompt.Keeps k) k.raises (Prompt.ofCode code bound args) := by
  cases bound with
  | none => exact hc
  | some bound =>
      simp only [Prompt.ofCode]
      split
      · exact hc
      · exact k.plain rfl

end LineShell
