import UscopeDriver.CoresAccesses
import UscopeDriver.Serving

/-!
# What served messages leave of the driver

Over all messages that the clients send, whatever they ask for : the hardware changes only where a
command with the access asked for it (`serve_touches`), and the two deployers hold the same layout,
that of the last map that was set (`serve_holds`).
-/

namespace UscopeDriver

open LogicLayout (parseLayoutObject)

namespace CommandProcessor

open Commands

/-- The command that a message asks for, with its arguments. None when the schema refuses it. -/
def asked (message : Surroundings × Json) : Option (String × Json) :=
  match message.1.validator.validate (command message.1.validator.integralFloats) message.2 with
  | some _ => none
  | none => do
    let cmd ← message.2.find? "cmd"
    let commandString ← cmd.text?
    let arguments ← message.2.find? "args"
    pure (commandString, arguments)

/-- A message that is answered was refused, or its command was processed. -/
theorem answer_eq_ok {message : Surroundings × Json} {p p' : CommandProcessor} {response : Json}
    (h : (answer message.1 message.2).run p = .ok response p') :
    asked message = none ∧ p' = p ∨ ∃ commandString arguments,
      asked message = some (commandString, arguments) ∧
        (processCommand message.1 commandString arguments).run p = .ok response p' := by
  unfold answer at h
  unfold asked
  cases hvalidate : message.1.validator.validate (command message.1.validator.integralFloats)
    message.2 with
  | some errorMessage =>
    rw [hvalidate] at h
    exact Or.inl ⟨rfl, (Exec.pure_eq_ok.1 h).2⟩
  | none =>
    rw [hvalidate] at h
    obtain ⟨cmd, p₁, hcmd, h₁⟩ := Exec.bind_eq_ok.1 h
    obtain ⟨hfind, rfl⟩ := Exec.require_eq_ok.1 hcmd
    obtain ⟨commandString, p₂, htext, h₂⟩ := Exec.bind_eq_ok.1 h₁
    obtain ⟨hstring, rfl⟩ := Exec.require_eq_ok.1 htext
    obtain ⟨arguments, p₃, hargs, h₃⟩ := Exec.bind_eq_ok.1 h₂
    obtain ⟨hfind', rfl⟩ := Exec.require_eq_ok.1 hargs
    exact Or.inr ⟨commandString, arguments, by simp [hfind, hstring, hfind'], h₃⟩

/-- A run keeps what every answer keeps. -/
theorem serve_induction {I : List (Surroundings × Json) → CommandProcessor → Prop}
    (hstep : ∀ message rest p response p', I (message :: rest) p →
      (answer message.1 message.2).run p = .ok response p' → I rest p') :
    ∀ {messages : List (Surroundings × Json)} {p p' : CommandProcessor} {responses : List Json},
      I messages p → (serve messages).run p = .ok responses p' → I [] p' := by
  intro messages
  induction messages with
  | nil =>
    rintro p p' responses hI h
    obtain ⟨-, rfl⟩ := Exec.pure_eq_ok.1 h
    exact hI
  | cons message rest ih =>
    rintro p p' responses hI h
    unfold serve at h
    rw [List.mapM_cons] at h
    obtain ⟨response, p₁, hanswer, h⟩ := Exec.bind_eq_ok.1 h
    obtain ⟨responses', p₂, hrest, h⟩ := Exec.bind_eq_ok.1 h
    obtain ⟨-, rfl⟩ := Exec.pure_eq_ok.1 h
    exact ih (hstep message rest p response p₁ hI hanswer) hrest

/-! ## The hardware -/

/-- What a message may do to the hardware. -/
def messageAccesses (message : Surroundings × Json) : Set Access :=
  {a | ∃ commandString arguments, asked message = some (commandString, arguments) ∧
    a ∈ accesses commandString}

theorem touches_body {w : Surroundings} {commandString : String} {arguments : Json}
    {p p' : CommandProcessor} {response : Response}
    (h : (body w commandString arguments).run p = .ok response p') :
    p.hw.Touches (accesses commandString) p'.hw := by
  unfold body at h
  split_ifs at h
  · obtain ⟨hw, hrun, rfl⟩ := Exec.zoom_eq_ok.1 h
    exact (ControlEndpoints.moves_processCommand w commandString arguments).of_ok hrun
  · obtain ⟨scope, hrun, rfl⟩ := Exec.zoom_eq_ok.1 h
    exact (ScopeEndpoints.moves_processCommand w commandString arguments).of_ok hrun
  · obtain ⟨cores, hrun, rfl⟩ := Exec.zoom_eq_ok.1 h
    by_cases hset : commandString = "set_hil_address_map"
    · subst hset
      have hrun : (CoresEndpoints.processSetHilAddressMap w.env.platform arguments).run _ =
        .ok response cores := hrun
      have hhw : cores.hw = p.hw := (CoresEndpoints.setHilAddressMap_eq_ok hrun).1
      change p.hw.Touches _ cores.hw
      rw [hhw]
      exact refl_of (FpgaBridge.Touches _) _
    · exact ((CoresEndpoints.moves_processCommand w hset arguments).of_ok hrun).hw
  · obtain ⟨platform, hrun, rfl⟩ := Exec.zoom_eq_ok.1 h
    exact refl_of (FpgaBridge.Touches _) _
  · obtain ⟨-, rfl⟩ := Exec.pure_eq_ok.1 h
    exact refl_of (FpgaBridge.Touches _) _
  · obtain ⟨-, rfl⟩ := Exec.pure_eq_ok.1 h
    exact refl_of (FpgaBridge.Touches _) _

theorem touches_answer {message : Surroundings × Json} {p p' : CommandProcessor} {response : Json}
    (h : (answer message.1 message.2).run p = .ok response p') :
    p.hw.Touches (messageAccesses message) p'.hw := by
  rcases answer_eq_ok h with ⟨-, rfl⟩ | ⟨commandString, arguments, hasked, hprocess⟩
  · exact refl_of (FpgaBridge.Touches _) _
  · obtain ⟨r, p₁, hbody, hpure⟩ := Exec.bind_eq_ok.1 hprocess
    obtain ⟨-, rfl⟩ := Exec.pure_eq_ok.1 hpure
    exact (touches_body hbody).mono fun a ha => ⟨commandString, arguments, hasked, ha⟩

theorem touches_serve {A : Set Access} {messages : List (Surroundings × Json)}
    (hA : ∀ message ∈ messages, messageAccesses message ⊆ A) {p p' : CommandProcessor}
    {responses : List Json} (h : (serve messages).run p = .ok responses p') :
    p.hw.Touches A p'.hw := by
  have hstart : (∀ message ∈ messages, messageAccesses message ⊆ A) ∧ p.hw.Touches A p.hw :=
    ⟨hA, refl_of (FpgaBridge.Touches A) p.hw⟩
  refine (serve_induction (I := fun rest t => (∀ message ∈ rest, messageAccesses message ⊆ A) ∧
    p.hw.Touches A t.hw) ?_ hstart h).2
  rintro message rest t response t' ⟨hrest, ht⟩ hanswer
  exact ⟨fun m hm => hrest m (by simp [hm]),
    trans_of (FpgaBridge.Touches A) ht ((touches_answer hanswer).mono (hrest message (by simp)))⟩

/-- Whatever messages are served, in any state of the driver, the bus is as live as before and what
was loaded stays loaded. Registers changed only on a live bus behind a bitstream, and only if a
message asked for a command that writes them, and programs only if one asked for a command that
loads them. -/
theorem serve_touches {messages : List (Surroundings × Json)} {p p' : CommandProcessor}
    {responses : List Json} (h : (serve messages).run p = .ok responses p') :
    p.hw.Touches {a | ∃ message ∈ messages, a ∈ messageAccesses message} p'.hw :=
  touches_serve (A := {a | ∃ message ∈ messages, a ∈ messageAccesses message})
    (fun message hmessage _ ha => ⟨message, hmessage, ha⟩) h

/-- A layout other than that of the tests. -/
def smallLayout : LogicLayout :=
  ⟨⟨1, 2, 3, 4, 5, 6, 7, 8⟩, ⟨9, 10, 11, 12, 13, 14⟩⟩

/-- A client that starts the logic and sets the map of another layout. -/
def startAndMap : List (Surroundings × Json) :=
  [(.of [] [], .object [("cmd", .string "hil_start"), ("args", .object [])]),
    (.of [] [], .object [("cmd", .string "set_hil_address_map"),
      ("args", smallLayout.dumpLayoutObject)])]

theorem serve_startAndMap : ∃ responses p, (serve startAndMap).run started = .ok responses p :=
  ⟨_, _, rfl⟩

theorem serve_touches_startAndMap : ∃ responses p,
    (serve startAndMap).run started = .ok responses p ∧
      started.hw.Touches {a | ∃ message ∈ startAndMap, a ∈ messageAccesses message} p.hw := by
  obtain ⟨responses, p, h⟩ := serve_startAndMap
  exact ⟨responses, p, h, serve_touches h⟩

/-! ## The layout -/

/-- The map that a message sets, with the platform that reads it. -/
def mapOf (message : Surroundings × Json) : Option (Platform × Json) :=
  match asked message with
  | some (commandString, arguments) =>
    if commandString = "set_hil_address_map" then some (message.1.env.platform, arguments) else none
  | none => none

/-- The layout that a map describes, and the earlier one without a map. -/
def Describes (l₀ : LogicLayout) : Option (Platform × Json) → LogicLayout → Prop
  | none, l => l = l₀
  | some (pl, obj), l =>
    ∀ a : LogicLayout.Address, LogicLayout.readAddress pl obj a = .ok (a.read l)

theorem holds_body {w : Surroundings} {commandString : String} {arguments : Json}
    (hset : commandString ≠ "set_hil_address_map") {p p' : CommandProcessor} {response : Response}
    (h : (body w commandString arguments).run p = .ok response p') {l : LogicLayout}
    (hl : p.cores.Holds l) : p'.cores.Holds l := by
  unfold body at h
  split_ifs at h
  · obtain ⟨hw, -, rfl⟩ := Exec.zoom_eq_ok.1 h
    exact hl
  · obtain ⟨scope, -, rfl⟩ := Exec.zoom_eq_ok.1 h
    exact hl
  · obtain ⟨cores, hrun, rfl⟩ := Exec.zoom_eq_ok.1 h
    have ht := (CoresEndpoints.moves_processCommand w hset arguments).of_ok hrun
    exact ⟨ht.hil.trans hl.1, ht.custom.trans hl.2⟩
  · obtain ⟨platform, -, rfl⟩ := Exec.zoom_eq_ok.1 h
    exact hl
  · obtain ⟨-, rfl⟩ := Exec.pure_eq_ok.1 h
    exact hl
  · obtain ⟨-, rfl⟩ := Exec.pure_eq_ok.1 h
    exact hl

theorem holds_setMap {w : Surroundings} {arguments : Json} {p p' : CommandProcessor}
    {response : Response} (h : (body w "set_hil_address_map" arguments).run p = .ok response p') :
    ∃ l, p'.cores.Holds l ∧ ∀ a : LogicLayout.Address,
      LogicLayout.readAddress w.env.platform arguments a = .ok (a.read l) := by
  obtain ⟨cores, hrun, rfl⟩ := Exec.zoom_eq_ok.1
    (show (onCores (CoresEndpoints.processSetHilAddressMap w.env.platform arguments)).run p =
      .ok response p' from h)
  exact (CoresEndpoints.setHilAddressMap_eq_ok hrun).2

theorem describes_answer {message : Surroundings × Json} {p p' : CommandProcessor}
    {response : Json} (h : (answer message.1 message.2).run p = .ok response p') {l : LogicLayout}
    (hl : p.cores.Holds l) : ∃ l', p'.cores.Holds l' ∧ Describes l (mapOf message) l' := by
  unfold mapOf
  rcases answer_eq_ok h with ⟨hasked, rfl⟩ | ⟨commandString, arguments, hasked, hprocess⟩
  · rw [hasked]
    exact ⟨l, hl, rfl⟩
  · obtain ⟨r, p₁, hbody, hpure⟩ := Exec.bind_eq_ok.1 hprocess
    obtain ⟨-, rfl⟩ := Exec.pure_eq_ok.1 hpure
    rw [hasked]
    by_cases hset : commandString = "set_hil_address_map"
    · subst hset
      exact holds_setMap hbody
    · simp only [if_neg hset]
      exact ⟨l, holds_body hset hbody hl, rfl⟩

theorem describes_append {l₀ l l' : LogicLayout} {maps : List (Platform × Json)}
    {map : Option (Platform × Json)} (h : Describes l₀ maps.getLast? l) (h' : Describes l map l') :
    Describes l₀ (maps ++ map.toList).getLast? l' := by
  cases map with
  | none =>
    cases h'
    simpa using h
  | some map =>
    rw [Option.toList_some, List.getLast?_concat]
    exact h'

/-- The answer to `get_hil_address_map`. -/
def mapResponse (l : LogicLayout) : Json :=
  .object [("cmd", .string "get_hil_address_map"),
    ("body", Response.toJson { responseCode := .ok, data := some l.dumpLayoutObject })]

theorem run_getMap {w : Surroundings} {arguments : Json} {p : CommandProcessor} {l : LogicLayout}
    (hl : p.cores.Holds l) :
    ∃ p', (processCommand w "get_hil_address_map" arguments).run p = .ok (mapResponse l) p' := by
  obtain ⟨hw, ⟨hw', hil, custom⟩, scope, platform⟩ := p
  obtain ⟨rfl, -⟩ := hl
  exact ⟨_, rfl⟩

/-- The layout with the messages `rest` still to be served. -/
def HoldsBefore (l₀ : LogicLayout) (messages rest : List (Surroundings × Json))
    (p : CommandProcessor) : Prop :=
  ∃ done, done ++ rest = messages ∧ ∃ l, p.cores.Holds l ∧
    Describes l₀ (done.filterMap mapOf).getLast? l

theorem holdsBefore_step {l₀ : LogicLayout} {messages rest : List (Surroundings × Json)}
    {message : Surroundings × Json} {p p' : CommandProcessor} {response : Json}
    (h : HoldsBefore l₀ messages (message :: rest) p)
    (hanswer : (answer message.1 message.2).run p = .ok response p') :
    HoldsBefore l₀ messages rest p' := by
  obtain ⟨done, hdone, l, hp, hmaps⟩ := h
  obtain ⟨l', hp', hmap⟩ := describes_answer hanswer hp
  refine ⟨done ++ [message], by simp [hdone], l', hp', ?_⟩
  rw [List.filterMap_append]
  have hlast := describes_append hmaps hmap
  cases hm : mapOf message <;> simpa [hm] using hlast

/-- Whatever messages are served to two deployers with the same layout, failed deployments among
them, they keep the same layout : that of the last map, or the first one while there was no map.
This is the map that a client reads back. -/
theorem serve_map {messages : List (Surroundings × Json)} {p p' : CommandProcessor}
    {responses : List Json} (h : (serve messages).run p = .ok responses p') {l₀ : LogicLayout}
    (hl : p.cores.Holds l₀) :
    ∃ l, p'.cores.Holds l ∧ Describes l₀ (messages.filterMap mapOf).getLast? l ∧
      ∀ w arguments, ∃ p'', (processCommand w "get_hil_address_map" arguments).run p' =
        .ok (mapResponse l) p'' := by
  have hstart : HoldsBefore l₀ messages messages p := ⟨[], rfl, l₀, hl, rfl⟩
  obtain ⟨done, hdone, l, hp, hmaps⟩ := serve_induction (I := HoldsBefore l₀ messages)
    (fun _ _ _ _ _ hI hanswer => holdsBefore_step hI hanswer) hstart h
  rw [List.append_nil] at hdone
  subst hdone
  exact ⟨l, hp, hmaps, fun w arguments => run_getMap hp⟩

/-- The layout after the messages is not the one before them. -/
theorem serve_map_startAndMap : ∃ responses p l,
    (serve startAndMap).run started = .ok responses p ∧ p.cores.Holds l ∧
      Describes .addrMapV2 (startAndMap.filterMap mapOf).getLast? l ∧ l ≠ .addrMapV2 := by
  obtain ⟨responses, p, h⟩ := serve_startAndMap
  obtain ⟨l, hl, hmap, -⟩ := serve_map h ⟨rfl, rfl⟩
  refine ⟨responses, p, l, h, hl, hmap, ?_⟩
  rintro rfl
  have hread : LogicLayout.readAddress .zeros smallLayout.dumpLayoutObject .coresRom = .ok 1 := rfl
  exact absurd (Except.ok.inj (hread.symm.trans (hmap .coresRom))) (by decide)

end CommandProcessor

end UscopeDriver
