import Telemetry.Proofs.LossFreeRun.Steady

/-!
# Turns of services in a steady agent

The turn of a service whose calls are accepted delivers what is queued for it.
-/

set_option autoImplicit false

namespace Telemetry.LossFreeRun

open AnsweredCalls AgentMoves
open ObservedCalls (Call)

variable {P : Platform} {r : Registry (answering P)} {put taken : List (String × Batch)}
  {a b : Agent (answering P)}

def served (a : Agent (answering P)) (id : String) (rest : List LoopId)
    (l : ServiceLoop (answering P)) : Agent (answering P) :=
  let p := Service.turn l a.clock a.around
  { a with
    services := a.services.insert id p.loop
    timers := a.timers.filter (·.loop != .service id)
      ++ (p.wakeAt.map fun t => ⟨Agent.timerMillis t, .service id⟩).toList
    ready := rest
    around := p.around }

theorem turn_served {id : String} {rest : List LoopId} {l : ServiceLoop (answering P)}
    (hr : a.ready = .service id :: rest) (hl : a.services.get? id = some l)
    (hc : a.cancelled = false) : a.turn = served a id rest l := by
  rw [Agent.turn, hr]
  simp only [Agent.serviceTurn, Agent.clearTimer, Agent.setTimer, hl, hc, served]
  rfl

theorem accepted_served {id : String} {rest : List LoopId} {l : ServiceLoop (answering P)}
    (hr : a.ready = .service id :: rest) (hl : a.services.get? id = some l)
    (hc : a.cancelled = false) {made : List Call}
    (hmade : (served a id rest l).around.world.2 = a.around.world.2 ++ made)
    (hq : ∀ c ∈ (served a id rest l).around.world.2, c.accepted = true) :
    accepted a = made.map fun c => (id, c.batch) := by
  have hall : made.filter (·.accepted) = made :=
    List.filter_eq_self.mpr fun c hmem => hq c (hmade ▸ List.mem_append_right _ hmem)
  rw [accepted, hr]
  dsimp only
  rw [turn_served hr hl hc, hmade, List.drop_left, hall]

theorem addressed_calls (id k : String) (made : List Call) :
    addressed k (made.map fun c => (id, c.batch)) =
      if id = k then made.map (·.batch) else [] := by
  have htagged := addressed_tagged k id (made.map (·.batch))
  rw [List.map_map] at htagged
  exact htagged

theorem served_serving (h : Steady r put taken a) {id : String} {rest : List LoopId}
    {l : ServiceLoop (answering P)} (hr : a.ready = .service id :: rest)
    (hl : a.services.get? id = some l)
    (hturn : Delivered l.service a.clock a.around (Service.turn l a.clock a.around))
    (hq : ∀ c ∈ (served a id rest l).around.world.2, c.accepted = true) {k : String}
    {s : Service (answering P)} {j : ServiceLoop (answering P)}
    (hs : r.services.get? k = some s) (hj : (served a id rest l).services.get? k = some j) :
    Serving r put (taken ++ accepted a) (served a id rest l) k s j := by
  have hawaited : awaited (served a id rest l) k = awaited a k :=
    awaited_congr (a := a) (b := served a id rest l) rfl (fun j _ => mem_rest hr (by simp)) k
  obtain ⟨made, hmade, hflat⟩ := hturn.calls
  have haddressed := addressed_calls id k made
  rw [← accepted_served hr hl h.cancelled hmade hq] at haddressed
  change (a.services.insert id _).get? k = some j at hj
  rw [Dict.get?_insert] at hj
  by_cases hk : k = id
  · subst hk
    rw [if_pos rfl, hturn.loop] at hj
    obtain rfl := Option.some.inj hj
    have hserving := h.serving k s l hs hl
    refine ⟨rfl, hserving.delivery, hserving.capacity, hserving.dropped, hserving.failures,
      fun _ => rfl, ?_, ?_⟩
    · have hle := hserving.room
      rw [hawaited]
      show 0 + awaited a k ≤ references r k
      omega
    · rw [addressed_append, haddressed, if_pos rfl, List.flatten_append, hflat]
      show _ ++ [] = _
      rw [List.append_nil]
      exact hserving.account
  · rw [if_neg hk] at hj
    rw [if_neg fun hid => hk hid.symm] at haddressed
    apply serving_kept (h.serving k s j hs hj) _ hawaited
    · rw [addressed_append, haddressed, List.append_nil]
    · exact (mem_rest hr (by simp [hk])).mpr

theorem served_steady (h : Steady r put taken a) (hroom : Roomy r) {id : String}
    {rest : List LoopId} {l : ServiceLoop (answering P)} (hr : a.ready = .service id :: rest)
    (hl : a.services.get? id = some l)
    (hq : ∀ c ∈ (served a id rest l).around.world.2, c.accepted = true) :
    Steady r put (taken ++ accepted a) (served a id rest l) := by
  obtain ⟨s, hs⟩ : ∃ s, r.services.get? id = some s := by
    have hserved := h.served id
    rw [hl] at hserved
    exact Option.isSome_iff_exists.mp hserved.symm
  have hserving := h.serving id s l hs hl
  have hturn := turn_delivers l a.clock a.around hserving.flight hq
  have hidle : 0 < l.service.delivery.idle := hserving.delivery ▸ hroom.idle id s hs
  have htimers : (served a id rest l).timers = a.timers.filter (·.loop != .service id) ++
      [⟨Agent.timerMillis (a.clock + l.service.delivery.idle), .service id⟩] := by
    simp only [served, hturn.wakeAt, Option.map_some, Option.toList_some]
  constructor
  · exact h.distinct
  · exact h.cancelled
  · exact (ready_rest h hr).2
  · exact h.outlines
  · intro t ht
    rw [htimers] at ht
    rcases List.mem_append.mp ht with ht | ht
    · exact h.future t (List.mem_filter.mp ht).1
    · rw [List.mem_singleton.mp ht]
      have hge := le_timerMillis (a.clock + l.service.delivery.idle)
      exact Nat.lt_of_lt_of_le (Nat.lt_add_of_pos_right hidle) hge
  · intro t ht k hk hloop
    rw [htimers] at ht
    rcases List.mem_append.mp ht with ht | ht
    · exact h.punctual t (List.mem_filter.mp ht).1 k hk hloop
    · rw [List.mem_singleton.mp ht] at hloop
      cases hloop
  · intro k hk
    refine standing_aside (h.standing k hk) rfl (mem_rest hr (by simp)) ?_
    intro t ht hloop
    exact List.mem_append_left _ (List.mem_filter.mpr ⟨ht, by simp [hloop]⟩)
  · exact h.unfailing
  · exact hturn.reports.trans h.unreported
  · intro k
    show ((a.services.insert id _).get? k).isSome = _
    rw [Dict.get?_insert]
    by_cases hk : k = id
    · rw [if_pos hk, hk, hs]
      rfl
    · rw [if_neg hk]
      exact h.served k
  · intro k s j hs hj
    exact served_serving h hr hl hturn hq hs hj

end Telemetry.LossFreeRun
