import SmartHome.Handler.Report

/-!
# The actions of a sequence of commands

The handler assigns `gpio_status` before it drives a pin or shows a text, and reads nothing else that a
command may have changed. So the actions of a command do not depend on the commands before it
(`Command.runs_events`), and those of a sequence of commands are the actions of the single commands, one
after the other (`exists_handleFrames_events`): what each command does can be read off the table that
the configuration gave.
-/

set_option autoImplicit false

namespace SmartHome.Handler

open SmartHome.Device SmartHome.Controls SmartHome.Found

/-- The actions of a command: none for a dropped one, else those for its record.
Source: none: the meaning of a command. Kind: D -/
def Command.events (pdevhead : List Gdevice) (c : Command) : List Event :=
  match c.target pdevhead with
  | none => []
  | some d => match pdevhead[d]? with
    | none => []
    | some pdev => commandEvents d pdev (requestedLevel c.status) c.score (overlay c.frame [])

variable {pdevhead : List Gdevice} {c : Command} {d : ℕ} {pdev : Gdevice}

theorem Command.events_of_target (htarget : c.target pdevhead = some d) (hg : pdevhead[d]? = some pdev) :
    c.events pdevhead =
      commandEvents d pdev (requestedLevel c.status) c.score (overlay c.frame []) := by
  unfold Command.events
  rw [htarget]
  simp only [hg]

theorem Command.events_of_dropped (htarget : c.target pdevhead = none) : c.events pdevhead = [] := by
  unfold Command.events
  rw [htarget]

/-- The record's `gpio_status` and the rest of the buffer do not matter. -/
theorem commandEvents_overlay (v : ℤ) (buffer : List Byte) :
    commandEvents d { pdev with gpioStatus := v } (requestedLevel c.status) c.score
        (overlay c.frame buffer) =
      commandEvents d pdev (requestedLevel c.status) c.score (overlay c.frame []) := by
  rw [commandEvents_eq, commandEvents_eq, commandText_replied, commandText_replied]
  rfl

/-- Tables with the same configuration have the same records up to `gpio_status`. -/
theorem exists_gpioStatus_of_map_config {t t' : List Gdevice}
    (h : t.map Gdevice.config = t'.map Gdevice.config) (hg : t[d]? = some pdev) :
    ∃ v, t'[d]? = some { pdev with gpioStatus := v } := by
  obtain ⟨pdev', hg', hconfig⟩ := exists_getElem?_of_map_config h hg
  refine ⟨pdev'.gpioStatus, hg'.trans (congrArg some ?_)⟩
  calc pdev' = { pdev'.config with gpioStatus := pdev'.gpioStatus } := rfl
    _ = { pdev.config with gpioStatus := pdev'.gpioStatus } := by rw [hconfig]
    _ = { pdev with gpioStatus := pdev'.gpioStatus } := rfl

/-- **One command, on whatever the earlier ones have made of the table**: it runs to completion, keeps
the configuration, and its actions are the command's.
Source: `receive_interface.c` `receive_thread_handler`
Kind: L -/
theorem Command.runs_events (hres : c.Resolves pdevhead) {table : List Gdevice}
    (htable : table.map Gdevice.config = pdevhead.map Gdevice.config) (buffer : List Byte) :
    ∃ out, receiveThreadHandler mainControls c.score table (overlay c.frame buffer) = .ok out ∧
      out.pdevhead.map Gdevice.config = pdevhead.map Gdevice.config ∧
      out.events = c.events pdevhead := by
  by_cases h40 : c.code = 0x40
  · have hdropped : c.target pdevhead = none := by simp [Command.target, h40]
    rw [receiveThreadHandler_of_skip mainControls ((byteAt_code c buffer).trans h40)]
    exact ⟨_, rfl, htable, (Command.events_of_dropped hdropped).symm⟩
  · obtain ⟨d, hfind⟩ := Option.isSome_iff_exists.mp (hres.resolve_left h40)
    obtain ⟨pdev, hg, -⟩ := exists_getElem?_of_find hfind
    obtain ⟨v, hg'⟩ := exists_gpioStatus_of_map_config htable.symm hg
    have htarget : c.target pdevhead = some d := Command.target_eq_some_iff.mpr ⟨h40, hfind⟩
    have htarget' : c.target table = some d := by
      rw [Command.target_eq_some_iff, findGdeviceByKey_of_map_config htable]
      exact ⟨h40, hfind⟩
    rw [Command.runs htarget' hg']
    refine ⟨_, rfl, ?_, ?_⟩
    · rw [map_config_setStatus, htable]
    · rw [commandEvents_overlay, Command.events_of_target htarget hg]

/-- **Any number of commands**: they are handled without a crash, keep the configuration, and their
actions are those of the single commands in order.
Source: `receive_interface.c` `receive_get`, `receive_thread_handler`
Kind: P -/
theorem exists_handleFrames_events (pdevhead : List Gdevice) (buffer : List Byte)
    (commands : List Command) (hres : ∀ c ∈ commands, c.Resolves pdevhead) :
    ∃ s, handleFrames ⟨pdevhead, buffer, []⟩ commands = .ok s ∧
      s.pdevhead.map Gdevice.config = pdevhead.map Gdevice.config ∧
      s.events = commands.flatMap (Command.events pdevhead) := by
  induction commands using List.reverseRecOn with
  | nil => exact ⟨_, rfl, rfl, rfl⟩
  | append_singleton commands c ih =>
      obtain ⟨s, hs, hconfig, hevents⟩ := ih fun c' hc' => hres c' (List.mem_append_left _ hc')
      have hc : c.Resolves pdevhead := hres c (List.mem_append_right _ List.mem_cons_self)
      obtain ⟨out, hout, hconfig', hevents'⟩ := Command.runs_events hc hconfig s.buffer
      refine ⟨{ out with events := s.events ++ out.events }, ?_, hconfig', ?_⟩
      · unfold handleFrames at hs ⊢
        rw [List.foldlM_append, hs]
        simp only [bind, Except.bind, List.foldlM_cons, List.foldlM_nil, handleMessage, hout, pure,
          Except.pure]
      · rw [List.flatMap_append, hevents, hevents', List.flatMap_singleton]

end SmartHome.Handler
