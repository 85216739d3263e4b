import ScriptSandbox.Proofs.ConfigLayers

namespace ScriptSandbox.Proofs.ConfigStored
open FileSteps Toml

/-- Every number in the value is one of 64 bits with a sign. -/
inductive InRange : Toml → Prop
  | string (s : String) : InRange (.string s)
  | integer {i : Int} (small : Scalar.inRange i = true) : InRange (.integer i)
  | float : InRange .float
  | boolean (b : Bool) : InRange (.boolean b)
  | datetime : InRange .datetime
  | array {items : List Toml} (all : ∀ v ∈ items, InRange v) : InRange (.array items)
  | table {entries : List (List String × Toml)} (all : ∀ e ∈ entries, InRange e.2) :
      InRange (.table entries)

/-- What the scanner reads has the property. -/
def Yields {α : Type} (P : α → Prop) (scan : Scanner α) : Prop :=
  ∀ ⦃cs x rest⦄, scan cs = some (x, rest) → P x

section
variable {value : Scanner Toml}

theorem inRange_ofWord {w : List Char} {v : Toml} (h : Scalar.ofWord w = some v) : InRange v := by
  unfold Scalar.ofWord at h
  split at h
  next => exact Option.some.inj h ▸ .boolean true
  next =>
    split at h
    next => exact Option.some.inj h ▸ .boolean false
    next =>
      split at h
      next i found =>
        unfold Scalar.integer at found
        exact Option.some.inj h ▸ .integer (Option.filter_eq_some_iff.mp found).2
      next =>
        split at h
        next => exact Option.some.inj h ▸ .float
        next =>
          split at h
          next => exact Option.some.inj h ▸ .datetime
          next => cases h

theorem yields_scalar : Yields InRange scalar := by
  intro cs v rest h
  simp only [scalar, Option.map_eq_some_iff, Prod.mk.injEq] at h
  obtain ⟨_, read, rfl, -⟩ := h
  exact inRange_ofWord read

theorem yields_items (inner : Yields InRange value) (limit : Nat) :
    Yields (fun vs => ∀ v ∈ vs, InRange v) (itemsWithin value limit) := by
  induction limit with
  | zero =>
    intro cs x rest h
    cases h
  | succ limit ih =>
    intro cs vs rest h
    unfold itemsWithin at h
    split at h
    next =>
      cases h
      simp
    next =>
      simp only [Option.bind_eq_bind, Option.bind_eq_some_iff] at h
      obtain ⟨⟨v, after⟩, read, h⟩ := h
      dsimp only at h
      split at h
      next =>
        cases h
        simpa using inner read
      next =>
        simp only [Option.bind_eq_some_iff] at h
        obtain ⟨⟨more, after'⟩, others, h⟩ := h
        cases h
        intro v' within
        rcases List.mem_cons.mp within with rfl | later
        · exact inner read
        · exact ih others v' later
      next => cases h

theorem yields_entry (inner : Yields InRange value) :
    Yields (fun e : List String × Toml => InRange e.2) (entry value) := by
  intro cs e rest h
  unfold entry at h
  simp only [Option.bind_eq_bind, Option.bind_eq_some_iff] at h
  obtain ⟨⟨ks, after⟩, -, h⟩ := h
  dsimp only at h
  split at h
  next =>
    simp only [Option.bind_eq_some_iff] at h
    obtain ⟨⟨v, after'⟩, read, h⟩ := h
    cases h
    exact inner read
  next => cases h

theorem yields_entriesWithin (inner : Yields InRange value) (limit : Nat) :
    Yields (fun es : List (List String × Toml) => ∀ e ∈ es, InRange e.2)
      (entriesWithin value limit) := by
  induction limit with
  | zero =>
    intro cs x rest h
    cases h
  | succ limit ih =>
    intro cs es rest h
    unfold entriesWithin at h
    simp only [Option.bind_eq_bind, Option.bind_eq_some_iff] at h
    obtain ⟨⟨e, after⟩, read, h⟩ := h
    dsimp only at h
    split at h
    next =>
      cases h
      simpa using yields_entry inner read
    next =>
      simp only [Option.bind_eq_some_iff] at h
      obtain ⟨⟨more, after'⟩, others, h⟩ := h
      cases h
      intro e' within
      rcases List.mem_cons.mp within with rfl | later
      · exact yields_entry inner read
      · exact ih others e' later
    next => cases h

theorem yields_entries (inner : Yields InRange value) :
    Yields (fun es : List (List String × Toml) => ∀ e ∈ es, InRange e.2) (entries value) := by
  intro cs es rest h
  unfold entries at h
  split at h
  next =>
    cases h
    simp
  next =>
    simp only [Option.bind_eq_bind, Option.bind_eq_some_iff] at h
    obtain ⟨⟨es', after⟩, read, h⟩ := h
    dsimp only at h
    split at h
    next =>
      cases h
      exact yields_entriesWithin inner _ read
    next => cases h

theorem yields_valueOver {inner : Option (Scanner Toml)}
    (each : ∀ s, inner = some s → Yields InRange s) : Yields InRange (valueOver inner) := by
  intro cs v rest h
  unfold valueOver at h
  split at h
  next =>
    simp only [Option.bind_eq_bind, Option.bind_eq_some_iff] at h
    obtain ⟨s, some_inner, ⟨vs, after⟩, read, h⟩ := h
    cases h
    exact .array (yields_items (each s some_inner) _ read)
  next =>
    simp only [Option.bind_eq_bind, Option.bind_eq_some_iff] at h
    obtain ⟨s, some_inner, ⟨es, after⟩, read, h⟩ := h
    cases h
    exact .table (yields_entries (each s some_inner) read)
  next =>
    obtain ⟨p, -, same⟩ := Option.map_eq_some_iff.mp h
    cases same
    exact .string _
  next =>
    obtain ⟨p, -, same⟩ := Option.map_eq_some_iff.mp h
    cases same
    exact .string _
  next => exact yields_scalar h

theorem yields_value (depth : Nat) : Yields InRange (Toml.value depth) := by
  induction depth with
  | zero => exact yields_valueOver (by simp)
  | succ depth ih =>
    apply yields_valueOver
    intro s same
    exact Option.some.inj same ▸ ih

end

/-- The numbers that a statement tells are in range. -/
def Sound (s : Statement) : Prop := ∀ ks v, s = .entry ks v → InRange v

/-- The numbers at the places read so far are in range. -/
def SoundMarks (marks : Draft.Marks) : Prop := ∀ m ∈ marks, ∀ v, m.2 = .value v → InRange v

theorem yields_scan : Yields Sound Statement.scan := by
  intro cs s rest h ks v same
  subst same
  unfold Statement.scan at h
  split at h
  next =>
    simp only [Option.bind_eq_bind, Option.bind_eq_some_iff] at h
    obtain ⟨⟨ks', after⟩, -, h⟩ := h
    dsimp only at h
    split at h <;> cases h
  next =>
    simp only [Option.bind_eq_bind, Option.bind_eq_some_iff] at h
    obtain ⟨⟨ks', after⟩, -, h⟩ := h
    dsimp only at h
    split at h <;> cases h
  next =>
    simp only [Option.bind_eq_bind, Option.bind_eq_some_iff] at h
    obtain ⟨⟨⟨ks', v'⟩, after⟩, read, h⟩ := h
    cases h
    exact yields_entry (yields_value depthLimit) read

theorem sound_statements {limit : Nat} {cs : List Char} {ss : List Statement}
    (h : statementsWithin limit cs = some ss) : ∀ s ∈ ss, Sound s := by
  induction limit generalizing cs ss with
  | zero => cases h
  | succ limit ih =>
    unfold statementsWithin at h
    split at h
    next =>
      cases h
      simp
    next =>
      simp only [Option.bind_eq_bind, Option.bind_eq_some_iff] at h
      obtain ⟨⟨s, after⟩, read, ⟨u, after'⟩, ended, h⟩ := h
      obtain ⟨more, others, h⟩ := h
      cases h
      intro s' within
      rcases List.mem_cons.mp within with rfl | later
      · exact yields_scan read
      · exact ih others s' later

section
variable {marks : Draft.Marks} {place : List String} {mark : Mark}

theorem SoundMarks.setMark (sound : SoundMarks marks) (new : ∀ v, mark = .value v → InRange v) :
    SoundMarks (Draft.setMark marks place mark) := by
  intro m within v same
  unfold Draft.setMark at within
  split at within
  next =>
    obtain ⟨m', within', rfl⟩ := List.mem_map.mp within
    split at same
    next => exact new v same
    next => exact sound m' within' v same
  next =>
    rcases List.mem_append.mp within with old | last
    · exact sound m old v same
    · obtain rfl := List.mem_singleton.mp last
      exact new v same

theorem SoundMarks.descend {mayEnter : Bool} (sound : SoundMarks marks)
    (table : ∀ v, mark ≠ .value v) {keys : List String} {above : List String} {marks' : Draft.Marks}
    (h : Draft.descend mark mayEnter marks place keys = some (above, marks')) :
    SoundMarks marks' := by
  induction keys generalizing marks place with
  | nil =>
    cases h
    exact sound
  | cons key keys ih =>
    simp only [Draft.descend] at h
    split at h
    next => exact ih (sound.setMark fun v same => absurd same (table v)) h
    next => cases h
    next => exact ih sound h
    next =>
      split at h
      next => exact ih sound h
      next => cases h
    next => exact ih sound h

theorem SoundMarks.apply {d d' : Draft} {s : Statement} (sound : SoundMarks d.marks)
    (told : Sound s) (h : s.apply d = some d') : SoundMarks d'.marks := by
  cases s with
  | entry ks v =>
    simp only [Statement.apply, Draft.addEntry, Option.bind_eq_bind, Option.bind_eq_some_iff] at h
    obtain ⟨last, -, ⟨above, marks⟩, descended, h⟩ := h
    have below := sound.descend (by simp) descended
    split at h
    next =>
      dsimp only at h
      split at h
      next =>
        cases h
        exact below.setMark fun v' same => told ks v' (by cases same; rfl)
      next => cases h
    next => cases h
  | table ks =>
    simp only [Statement.apply, Draft.openTable, Option.bind_eq_bind, Option.bind_eq_some_iff] at h
    obtain ⟨last, -, ⟨above, marks⟩, descended, h⟩ := h
    have below := sound.descend (by simp) descended
    dsimp only at h
    split at h
    next =>
      cases h
      exact below.setMark (by simp)
    next =>
      cases h
      exact below.setMark (by simp)
    next => cases h
  | listed ks =>
    simp only [Statement.apply, Draft.addTable, Option.bind_eq_bind, Option.bind_eq_some_iff] at h
    obtain ⟨last, -, ⟨above, marks⟩, descended, h⟩ := h
    have below := sound.descend (by simp) descended
    dsimp only at h
    split at h
    next =>
      cases h
      exact below.setMark (by simp)
    next =>
      cases h
      exact below.setMark (by simp)
    next => cases h

end

theorem sound_foldlM {ss : List Statement} {d d' : Draft} (sound : SoundMarks d.marks)
    (told : ∀ s ∈ ss, Sound s) (h : ss.foldlM Statement.apply d = some d') :
    SoundMarks d'.marks := by
  induction ss generalizing d with
  | nil =>
    cases h
    exact sound
  | cons s ss ih =>
    rw [List.foldlM_cons, Option.bind_eq_bind, Option.bind_eq_some_iff] at h
    obtain ⟨d₁, applied, more⟩ := h
    exact ih (sound.apply (told s List.mem_cons_self) applied)
      (fun s' within => told s' (List.mem_cons_of_mem _ within)) more

theorem inRange_entries {d : Draft} (sound : SoundMarks d.marks) :
    ∀ e ∈ d.entries, InRange e.2 := by
  intro e within
  unfold Draft.entries at within
  obtain ⟨m, here, found⟩ := List.mem_filterMap.mp within
  have old := (List.mem_filter.mp here).1
  split at found
  next v same =>
    cases found
    exact sound m old v same
  next =>
    cases found
    exact .table (by simp)
  next =>
    cases found
    refine .array ?_
    intro v within'
    rw [List.eq_of_mem_replicate within']
    exact .table (by simp)
  next => cases found
  next => cases found

/-- All numbers in a document are in range. -/
theorem inRange_parse {document : String} {v : Toml} (h : Toml.parse document = some v) :
    InRange v := by
  simp only [Toml.parse, Option.bind_eq_bind, Option.bind_eq_some_iff] at h
  obtain ⟨ss, read, d, applied, h⟩ := h
  cases h
  have start : SoundMarks ({} : Draft).marks := by
    intro m within
    cases within
  exact .table (inRange_entries (sound_foldlM start (sound_statements read) applied))

theorem inRange_member? {entries : List (List String × Toml)} {key : String} {x : Toml}
    (all : ∀ e ∈ entries, InRange e.2) (h : Toml.member? entries key = some x) : InRange x := by
  have below : ∀ e ∈ Toml.under entries key, InRange e.2 := by
    intro e within
    obtain ⟨e', here, found⟩ := List.mem_filterMap.mp within
    split at found
    next =>
      split at found
      next =>
        cases found
        exact all e' here
      next => cases found
    next => cases found
  unfold Toml.member? at h
  split at h
  next => cases h
  next found =>
    cases h
    exact below ([], x) (found ▸ List.mem_singleton_self _)
  next =>
    cases h
    exact .table fun e within => below e (List.mem_filter.mp within).1

theorem inRange_member {v : Option Toml} {place : Nat × String} {x : Toml}
    (sound : ∀ v', v = some v' → InRange v') (h : ConfigLayers.member v place = some x) :
    InRange x := by
  simp only [ConfigLayers.member, Option.bind_eq_bind, Option.bind_eq_some_iff] at h
  obtain ⟨v', rfl, find, groups, found⟩ := h
  have sound := sound v' rfl
  cases sound with
  | array all =>
    cases groups
    exact all x (List.mem_of_getElem? found)
  | table all =>
    cases groups
    exact inRange_member? all found
  | datetime =>
    cases groups
    cases found
  | string s | integer small | float | boolean b => cases groups

theorem natural_small {v : Toml} {n : Nat} (sound : InRange v) (h : Config.natural v = some n) :
    n < 0x8000000000000000 := by
  cases sound with
  | integer small =>
    unfold Config.natural at h
    split at h
    next same =>
      cases same
      cases h
      simp only [Scalar.inRange, Bool.and_eq_true, decide_eq_true_eq] at small
      exact Int.ofNat_lt.mp small.2
    next => cases h
  | string s | float | boolean b | datetime | array all | table all => cases h

/-- The time that a document allows a run is in range. -/
theorem timeout_small {h : Host} {t : Tree} {chosen : Option String} {file : Option Toml}
    {c : Config} (used : ConfigLayers.Used h t chosen file)
    (tells : ConfigLayers.stored file = some c) {n : Nat}
    (limit : c.wasmer.timeout = some n) : n < 0x8000000000000000 := by
  have sound (v : Toml) (same : file = some v) : InRange v := by
    cases used with
    | named content document | usual content document =>
      exact Option.some.inj same ▸ inRange_parse document
    | missing absent => cases same
  rw [(ConfigLayers.layered_stored tells).timeout, Option.bind_eq_some_iff] at limit
  obtain ⟨v, found, number⟩ := limit
  have inner : InRange v := by
    apply inRange_member _ found
    intro v' found'
    exact inRange_member sound found'
  exact natural_small inner number

/-- Loading succeeds with what the file tells under what the environment overrides. -/
theorem load_eq_ok {h : Host} {chosen : Option String} {w w₁ : World} {c : Config}
    (loaded : after (Config.load h chosen) w = (.ok c, w₁)) :
    ∃ file stored, ConfigLayers.Used h w.tree chosen file ∧ ConfigLayers.stored file = some stored ∧
      c = stored.override (.ofVariables h.lookup) := by
  obtain ⟨log, outcome⟩ := ConfigLayers.after_load (h := h) (w := w) chosen
  have same := congrArg Prod.fst (loaded.symm.trans outcome)
  cases found : ConfigLayers.inChosen h w.tree chosen with
  | error e =>
    rw [found] at same
    cases same
  | ok stored =>
    rw [found] at same
    obtain ⟨file, used, tells⟩ := ConfigLayers.inChosen_eq_ok.mp found
    exact ⟨file, stored, used, tells, Except.ok.inj same⟩

/-- A configuration with a time in range can be written. -/
theorem written_eq_ok {c : Config}
    (small : ∀ n, c.wasmer.timeout = some n → n < 0x8000000000000000) :
    c.written = .ok c.document := by
  have range : (c.wasmer.timeout.all fun n : Nat => Scalar.inRange n) = true := by
    cases limit : c.wasmer.timeout with
    | none => rfl
    | some n =>
      have below : (n : Int) < 0x8000000000000000 := Int.ofNat_lt.mpr (small n limit)
      have above : -0x8000000000000000 ≤ (n : Int) := by omega
      rw [Option.all_some, Scalar.inRange, Bool.and_eq_true, decide_eq_true_eq, decide_eq_true_eq]
      exact ⟨above, below⟩
  rw [Config.written, if_pos range]

/-- Each configuration that a command gets can be written. It is read back from what is written for
it, by itself and as the command that shows it prints it. -/
theorem read_shown {h : Host} {line : CommandLine} {w w₁ : World} {c : Config}
    (loaded : after (Config.load h line.config) w = (.ok c, w₁)) :
    ∃ document report, (c.override line.overrides).written = .ok document ∧
      Command.performConfig h (c.override line.overrides) .display = .ok report ∧
      ∀ text, text = document ∨ text = report.stdout →
        Config.parse text = .ok (c.override line.overrides) ∧
        ∀ (h' : Host) (w' : World) (path : String),
          w'.tree.read h'.cwd path = .ok (Utf8.encode text) →
          ∃ log, after (Config.read h' path) w' =
            (.ok (c.override line.overrides), { w' with log := log }) := by
  have small (n : Nat) (limit : (c.override line.overrides).wasmer.timeout = some n) :
      n < 0x8000000000000000 := by
    obtain ⟨file, stored, used, tells, rfl⟩ := load_eq_ok loaded
    exact timeout_small used tells limit
  have document := written_eq_ok small
  refine ⟨_, { stdout := (c.override line.overrides).document ++ "\n" }, document, ?_, ?_⟩
  · rw [Command.performConfig, document]
    rfl
  intro text written
  have parsed : Config.parse text = .ok (c.override line.overrides) := by
    rcases written with rfl | rfl
    · have read := ConfigText.parse_document "" small .nil
      rwa [String.append_empty] at read
    · exact ConfigText.parse_document "\n" small (.blank .nil)
  refine ⟨parsed, ?_⟩
  intro h' w' path octets
  obtain ⟨log, read⟩ := ConfigLayers.after_read (h := h') (w := w') path
  have found : ConfigLayers.inFile h' w'.tree path = .ok (c.override line.overrides) := by
    rw [ConfigLayers.inFile, ConfigLayers.readText_of_read octets]
    exact parsed
  exact ⟨log, found ▸ read⟩

def sampleHost : Host where
  env := [("PYTHON_PATH", "a\"\x27\\\n\r\t\x27\x27\x27\"\"\"")]
  tag _ := "x"

def sampleLine : CommandLine where
  overrides := { wasmerBinary := some "\x01" }
  command := .config .display

theorem read_shown_sample : ∃ c w₁ report,
    after (Config.load sampleHost sampleLine.config) {} = (.ok c, w₁) ∧
    Command.performConfig sampleHost (c.override sampleLine.overrides) .display = .ok report ∧
    Config.parse report.stdout = .ok (c.override sampleLine.overrides) := by
  have loaded : after (Config.load sampleHost sampleLine.config) {} =
      (.ok (({} : Config).override (.ofVariables sampleHost.lookup)), {}) := rfl
  obtain ⟨document, report, -, shown, read⟩ := read_shown loaded
  exact ⟨_, _, report, loaded, shown, (read _ (.inr rfl)).1⟩

end ScriptSandbox.Proofs.ConfigStored
