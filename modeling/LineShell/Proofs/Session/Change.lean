import LineShell.Proofs.Session.Conduct
import Mathlib.Logic.Relation

/-! # Changes — what can happen to a session, one thing at a time

    Whatever a shell and its code do to a session is a sequence of small
    changes.  Each is one constructor, with what is known when it happens:
    a class that is registered or scanned is in the catalogue, and a line
    is read only where lines may be read.  What every change leaves alone,
    no session loses:

    * the code in it keeps the conduct (`Change.keeps`);
    * its class, its surroundings and its catalogue stay
      (`Steps.shell_eq`, `Steps.world_eq`, `Steps.catalogue_eq`);
    * its source is used up from the front (`Steps.items_suffix`). -/

namespace LineShell

variable {k : Conduct} {reads : Prop} {s s' : Session}

/-- What is left of a source that holds its lines. -/
def Source.items : Source → List SourceItem
  | .script items _ => items
  | .keyboard => []

/-- A class that code can come by: it is in the catalogue. -/
def Session.Knows (s : Session) (c : Class) : Prop :=
  ∃ name, s.catalogue.find? name = some c

/-- One small change of a session that runs code of a conduct; `reads`
    says whether lines may be read. -/
inductive Change (k : Conduct) (reads : Prop) (s : Session) :
    Session → Prop where
  | recorded (events : List Event) :
      Change k reads s { s with events := s.events ++ events }
  | traced (values : List Value) :
      Change k reads s { s with trace := s.trace ++ values }
  | amended (name : String) (change : Value → Value) :
      Change k reads s (s.amended name change)
  | printed (text : String) :
      Change k reads s { s with printed := s.printed ++ text }
  | assigned (name text : String) :
      Change k reads s { s with env := s.env.insert name (.text text) }
  | unset (name : String) :
      Change k reads s { s with env := s.env.erase name }
  | cleared : Change k reads s { s with env := .empty }
  | overlaid (values : OrderedMap String) :
      Change k reads s { s with env := s.env.overlay values }
  | restored (saved : Environment.Saved) :
      Change k reads s { s with env := s.env.restore saved }
  | remembered (overlays : List (Option Environment.Saved)) :
      Change k reads s { s with overlays }
  | scanned {c : Class} (hc : s.Knows c) (source : String) :
      Change k reads s { s with registry := s.registry.scan c source }
  | dispatchable (names : List String) :
      Change k reads s { s with registry := s.registry.setDispatchable names }
  | topics (names : List String) :
      Change k reads s { s with registry := s.registry.setTopics names }
  | begun (hp : s.phase ≠ .terminated) :
      Change k reads s { s with phase := .running, quitRequested := false }
  | moved (p : Phase) : Change k reads s { s with phase := p }
  | stopped : Change k reads s { s with quitRequested := true }
  | read (h : reads) (prompt : Value) (keys : String) :
      Change k reads s { s with
        reader := (s.reader.read s.identity prompt keys).2.1
        printed := s.printed ++ (s.reader.read s.identity prompt keys).2.2 }
  | recalled (entries : List String) :
      Change k reads s
        { s with reader := { s.reader with history := entries } }
  | filed (files : FileTree) : Change k reads s { s with files }
  | prompted {p : Prompt} (hp : p.Keeps k) :
      Change k reads s { s with prompt := p }
  | chosen (name : String) (v : Value) :
      Change k reads s { s with options := s.options.insert name v }
  | numbered (serial : Nat) : Change k reads s { s with serial }
  | extended {c : Class} (hc : s.Knows c) (name : String) (serial : Nat)
      (label : String) :
      Change k reads s { s with
        extensions := (s.extensions.register c name serial label).2 }
  | blocked (name : String) :
      Change k reads s { s with extensions := s.extensions.block name }

/-- Changes, one after the other. -/
abbrev Steps (k : Conduct) (reads : Prop) : Session → Session → Prop :=
  Relation.ReflTransGen (Change k reads)

/-! ## What a read does to its reader -/

namespace Reader

variable {r : Reader} {me : Identity} {prompt : Value} {keys : String}

@[simp] theorem remember_source (r : Reader) (line : String) :
    (r.remember line).source = r.source := by
  rw [remember]
  split <;> rfl

@[simp] theorem remember_histfile (r : Reader) (line : String) :
    (r.remember line).histfile = r.histfile := by
  rw [remember]
  split <;> rfl

@[simp] theorem rememberTyped_source (r : Reader) (line : String) :
    (r.rememberTyped line).source = r.source := by
  rw [rememberTyped]
  split <;> rfl

@[simp] theorem rememberTyped_histfile (r : Reader) (line : String) :
    (r.rememberTyped line).histfile = r.histfile := by
  rw [rememberTyped]
  split <;> rfl

/-- Taking the next line of a script takes its first item off. -/
theorem next_source {items : List SourceItem} {echo : Bool}
    (hs : r.source = .script items echo) :
    (r.next echo items).2.source = .script items.tail echo := by
  rcases items with _ | ⟨text | f, rest⟩
  · exact hs
  · simp [next]
  · rfl

@[simp] theorem next_histfile (r : Reader) (echo : Bool)
    (items : List SourceItem) :
    (r.next echo items).2.histfile = r.histfile := by
  rcases items with _ | ⟨text | f, rest⟩
  · rfl
  · simp [next]
  · rfl

/-- What a script hands over as a line is its first item. -/
theorem next_line {items : List SourceItem} {echo : Bool} {line : String}
    (h : (r.next echo items).1 = .ok line) :
    ∃ text rest, items = .line text :: rest ∧
      line = String.ofList (dropLineEnd text.toList) := by
  rcases items with _ | ⟨text | f, rest⟩
  · cases h
  · cases h
    exact ⟨text, rest, rfl, rfl⟩
  · cases h

/-- A read of the keyboard is what the keys come to. -/
theorem read_keyboard (me : Identity) (prompt : Value) (keys : String)
    (hs : r.source = .keyboard) :
    (∃ line, typed [] keys.toList = .ok line ∧
      r.read me prompt keys = (.ok line, r.rememberTyped line, "")) ∨
    (∃ f, typed [] keys.toList = .error f ∧
      r.read me prompt keys = (.error f, r, "")) := by
  simp only [read, hs]
  cases typed [] keys.toList with
  | ok line => exact Or.inl ⟨line, rfl, rfl⟩
  | error f => exact Or.inr ⟨f, rfl, rfl⟩

/-- A read of a script takes the next item, unless there is a prompt that
    cannot be written out. -/
theorem read_script (me : Identity) (prompt : Value) (keys : String)
    {items : List SourceItem} {echo : Bool}
    (hs : r.source = .script items echo) :
    (∃ shown, r.read me prompt keys =
      ((r.next echo items).1, (r.next echo items).2, shown)) ∨
    (∃ f, f.isPlain = true ∧ r.read me prompt keys = (.error f, r, "")) := by
  cases echo with
  | false =>
      simp only [read, hs]
      exact Or.inl ⟨"", rfl⟩
  | true =>
      simp only [read, hs]
      cases prompt.asText? with
      | some text => exact Or.inl ⟨text, rfl⟩
      | none => exact Or.inr ⟨_, rfl, rfl⟩

/-- Reading leaves a source as it is, or takes the first item off. -/
theorem source_read (me : Identity) (r : Reader) (prompt : Value)
    (keys : String) :
    (r.read me prompt keys).2.1.source = r.source ∨
      ∃ items echo, r.source = .script items echo ∧
        (r.read me prompt keys).2.1.source = .script items.tail echo := by
  cases hs : r.source with
  | keyboard =>
      left
      rcases read_keyboard me prompt keys hs with ⟨line, -, h⟩ | ⟨f, -, h⟩
      · rw [h, rememberTyped_source, hs]
      · rw [h, hs]
  | script items echo =>
      rcases read_script me prompt keys hs with ⟨shown, h⟩ | ⟨f, -, h⟩
      · right
        exact ⟨items, echo, rfl, by rw [h]; exact next_source hs⟩
      · left
        rw [h, hs]

/-- So what is left of a script is the end of what there was. -/
theorem items_read (me : Identity) (r : Reader) (prompt : Value)
    (keys : String) :
    (r.read me prompt keys).2.1.source.items <:+ r.source.items := by
  rcases r.source_read me prompt keys with h | ⟨items, echo, hs, h⟩
  · simp [h]
  · simpa [h, hs, Source.items] using List.tail_suffix items

/-- Reading leaves the history file alone. -/
theorem histfile_read (me : Identity) (r : Reader) (prompt : Value)
    (keys : String) : (r.read me prompt keys).2.1.histfile = r.histfile := by
  cases hs : r.source with
  | keyboard =>
      rcases read_keyboard me prompt keys hs with ⟨line, -, h⟩ | ⟨f, -, h⟩
      · simp [h]
      · simp [h]
  | script items echo =>
      rcases read_script me prompt keys hs with ⟨shown, h⟩ | ⟨f, -, h⟩
      · simp [h]
      · simp [h]

/-- What typed keys come to is a line, the end, or an interrupt. -/
theorem typed_fault {line keys : List Char} {f : Fault}
    (h : typed line keys = .error f) : f = atEnd ∨ f = .interrupt "" := by
  induction keys generalizing line with
  | nil =>
      cases h
      exact Or.inl rfl
  | cons c rest ih =>
      rw [typed] at h
      split at h
      · cases h
      split at h
      · cases h
        exact Or.inr rfl
      split at h
      · split at h
        · cases h
          exact Or.inl rfl
        · exact ih h
      · exact ih h

/-- A script that fails ends, or has a fault that its items may be. -/
theorem next_fault {items : List SourceItem} {echo : Bool} {f : Fault}
    (hs : (Source.script items echo).Keeps k)
    (h : (r.next echo items).1 = .error f) : k.Meets f := by
  rcases items with _ | ⟨text | g, rest⟩
  · cases h
    exact Or.inl (k.plain rfl)
  · cases h
  · cases h
    exact Or.inr (hs g List.mem_cons_self)

/-- A read that fails ends in a plain fault, or in one that the source may
    come up with. -/
theorem read_fault {f : Fault} (hs : r.source.Keeps k)
    (h : (r.read me prompt keys).1 = .error f) : k.Meets f := by
  cases hr : r.source with
  | keyboard =>
      rw [hr] at hs
      rcases read_keyboard me prompt keys hr with ⟨line, -, he⟩ | ⟨g, hg, he⟩
      · rw [he] at h
        cases h
      · rw [he] at h
        cases h
        rcases typed_fault hg with rfl | rfl
        · exact Or.inl (k.plain rfl)
        · exact Or.inr hs
  | script items echo =>
      rw [hr] at hs
      rcases read_script me prompt keys hr with ⟨shown, he⟩ | ⟨g, hg, he⟩
      · rw [he] at h
        exact next_fault hs h
      · rw [he] at h
        cases h
        exact Or.inl (k.plain hg)

/-- A line that is read without keys is the first item of a script. -/
theorem read_line {line : String} (h : (r.read me prompt "").1 = .ok line) :
    ∃ text rest echo, r.source = .script (.line text :: rest) echo ∧
      line = String.ofList (dropLineEnd text.toList) ∧
      (r.read me prompt "").2.1.source = .script rest echo := by
  cases hs : r.source with
  | keyboard =>
      rcases read_keyboard me prompt "" hs with ⟨_, ht, -⟩ | ⟨f, -, he⟩
      · cases ht
      · rw [he] at h
        cases h
  | script items echo =>
      rcases read_script me prompt "" hs with ⟨shown, he⟩ | ⟨f, -, he⟩
      · rw [he] at h ⊢
        obtain ⟨text, rest, rfl, hline⟩ := next_line h
        exact ⟨text, rest, echo, rfl, hline, next_source hs⟩
      · rw [he] at h
        cases h

/-- What is left of a source after a read may still come up with what the
    source could. -/
theorem keeps_read (me : Identity) {r : Reader} (prompt : Value)
    (keys : String) (h : r.source.Keeps k) :
    (r.read me prompt keys).2.1.source.Keeps k := by
  rcases r.source_read me prompt keys with heq | ⟨items, echo, hs, heq⟩
  · rw [heq]
    exact h
  · rw [heq]
    rw [hs] at h
    intro f hf
    exact h f (List.mem_of_mem_tail hf)

end Reader

/-! ## What one change preserves -/

namespace Change

/-- The code that a session holds keeps its conduct. -/
theorem keeps (h : Change k reads s s') (hs : s.Keeps k) : s'.Keeps k := by
  cases h with
  | scanned hc source =>
      obtain ⟨name, hc⟩ := hc
      exact { hs with
        registry := hs.registry.scan (hs.catalogue name _ hc) source }
  | dispatchable names =>
      obtain ⟨hh, hp, hc⟩ := hs.registry
      exact { hs with registry := ⟨hh, hp, hc⟩ }
  | topics names =>
      obtain ⟨hh, hp, hc⟩ := hs.registry
      exact { hs with registry := ⟨hh, hp, hc⟩ }
  | read _ prompt keys =>
      exact { hs with source := Reader.keeps_read _ prompt keys hs.source }
  | prompted hp => exact { hs with prompt := hp }
  | extended hc name serial label =>
      obtain ⟨className, hc⟩ := hc
      exact { hs with
        extensions := Extensions.Keeps.register hs.extensions
          (hs.catalogue className _ hc) name serial label }
  | blocked name =>
      exact { hs with extensions := Extensions.Keeps.block hs.extensions name }
  | _ => exact { hs with }

theorem shell_eq (h : Change k reads s s') : s'.shell = s.shell := by
  cases h <;> rfl

theorem world_eq (h : Change k reads s s') : s'.world = s.world := by
  cases h <;> rfl

theorem catalogue_eq (h : Change k reads s s') :
    s'.catalogue = s.catalogue := by
  cases h <;> rfl

theorem histfile_eq (h : Change k reads s s') :
    s'.reader.histfile = s.reader.histfile := by
  cases h with
  | read _ prompt keys => exact Reader.histfile_read _ _ prompt keys
  | _ => rfl

/-- Only reading changes the source, from the front. -/
theorem items_suffix (h : Change k reads s s') :
    s'.reader.source.items <:+ s.reader.source.items := by
  cases h with
  | read _ prompt keys => exact Reader.items_read _ _ prompt keys
  | _ => exact List.suffix_refl _

theorem source_eq (h : Change k reads s s') (hr : ¬ reads) :
    s'.reader.source = s.reader.source := by
  cases h with
  | read hr' _ _ => exact absurd hr' hr
  | _ => rfl

theorem mono {more : Prop} (h : Change k reads s s') (hm : reads → more) :
    Change k more s s' := by
  cases h with
  | read hr prompt keys => exact .read (hm hr) prompt keys
  | scanned hc source => exact .scanned hc source
  | begun hp => exact .begun hp
  | prompted hp => exact .prompted hp
  | extended hc name serial label => exact .extended hc name serial label
  | blocked name => exact .blocked name
  -- no other change depends on whether lines may be read
  | _ => constructor

end Change

/-! ## What any number of changes preserves -/

namespace Steps

theorem keeps (h : Steps k reads s s') (hs : s.Keeps k) : s'.Keeps k := by
  induction h with
  | refl => exact hs
  | tail _ hc ih => exact hc.keeps ih

/-- What no change alters, no number of them does. -/
theorem kept {α : Type} (part : Session → α)
    (hpart : ∀ {s s' : Session}, Change k reads s s' → part s' = part s)
    (h : Steps k reads s s') : part s' = part s := by
  induction h with
  | refl => rfl
  | tail _ hc ih => rw [hpart hc, ih]

theorem shell_eq (h : Steps k reads s s') : s'.shell = s.shell :=
  h.kept Session.shell Change.shell_eq

theorem world_eq (h : Steps k reads s s') : s'.world = s.world :=
  h.kept Session.world Change.world_eq

theorem catalogue_eq (h : Steps k reads s s') :
    s'.catalogue = s.catalogue :=
  h.kept Session.catalogue Change.catalogue_eq

theorem histfile_eq (h : Steps k reads s s') :
    s'.reader.histfile = s.reader.histfile :=
  h.kept (fun s => s.reader.histfile) Change.histfile_eq

/-- So the classes that code can come by stay the same. -/
theorem knows (h : Steps k reads s s') {c : Class} (hc : s.Knows c) :
    s'.Knows c := by
  obtain ⟨name, hc⟩ := hc
  rw [← h.catalogue_eq] at hc
  exact ⟨name, hc⟩

/-- Where there is no class to come by, an empty chain stays empty. -/
theorem chain_eq_nil (h : Steps k reads s s') (hnone : ∀ c, ¬ s.Knows c)
    {hook : String} (hnil : s.extensions.chain hook = []) :
    s'.extensions.chain hook = [] := by
  induction h with
  | refl => exact hnil
  | @tail s₁ s₂ h hc ih =>
      cases hc with
      -- only a known class can make a chain longer
      | extended hknown _ =>
          obtain ⟨name, hknown⟩ := hknown
          rw [Steps.catalogue_eq h] at hknown
          exact absurd ⟨name, hknown⟩ (hnone _)
      | blocked name =>
          refine List.eq_nil_iff_forall_not_mem.mpr ?_
          intro i hi
          exact List.eq_nil_iff_forall_not_mem.mp ih i
            (Extensions.mem_chain_block hi)
      | _ => exact ih

theorem items_suffix (h : Steps k reads s s') :
    s'.reader.source.items <:+ s.reader.source.items := by
  induction h with
  | refl => exact List.suffix_refl _
  | tail _ hc ih => exact hc.items_suffix.trans ih

theorem source_eq (h : Steps k reads s s') (hr : ¬ reads) :
    s'.reader.source = s.reader.source :=
  h.kept (fun s => s.reader.source) fun hc => hc.source_eq hr

theorem mono {more : Prop} (h : Steps k reads s s') (hm : reads → more) :
    Steps k more s s' := by
  induction h with
  | refl => exact .refl
  | tail _ hc ih => exact ih.tail (hc.mono hm)

end Steps

/-- How many items are left is how many turns a loop can still take. -/
theorem Reader.remaining_eq (r : Reader) :
    r.remaining = r.source.items.length := by
  obtain ⟨source, histfile, histsize, history⟩ := r
  cases source <;> rfl

theorem Steps.remaining_le (h : Steps k reads s s') :
    s'.reader.remaining ≤ s.reader.remaining := by
  rw [Reader.remaining_eq, Reader.remaining_eq]
  exact h.items_suffix.length_le

end LineShell
