import ChannelLog.Proofs.Log.Restart
import ChannelLog.Proofs.Store.Reopening

/-!
# The topic index over a store that numbers its entries

The locations of such a store are hashes of number and text. So two appends have one location only if
their hashes collide, and no more has to be said of a store that appends alone have filled.

* `Log.drafts`: the texts that calls on a log append.
* `Log.locations_appended`: they are stored where a store places them that was given them directly.
* `Log.index_matches_appends`: **without collisions the topic index is what the store says**, whatever
  was appended to the store before the log was started and whatever is called on the log.
-/

namespace ChannelLog

open StoreCall (drafts)
open Draft (places receipt)

variable {σ : Type} [Store σ]

/-- The texts that a call appends, with what the clock shows then. -/
def LogCall.drafts (log : Log σ) : LogCall → List Draft
  | persist c => ((persist c).appended log).map fun e => ⟨c.now, e.block.text⟩
  | _ => []

namespace Log

/-- The texts that the calls append. -/
def drafts (log : Log σ) : List LogCall → List Draft
  | [] => []
  | call :: calls => call.drafts log ++ drafts (call.after log) calls

variable [NumberedStore σ] {log : Log σ} {index : TopicIndex} {ds : List Draft}

theorem locations_call (hready : log.phase = .ready index)
    (hls : Store.locations log.store = .ok (places ds)) (call : LogCall) :
    places ds ++ (call.appended log).map (·.location) = places (ds ++ call.drafts log) := by
  have hnone : places ds ++ ([] : List Entry).map (·.location) = places (ds ++ []) := by
    rw [List.map_nil, List.append_nil, List.append_nil]
  cases call with
  | start | look => exact hnone
  | persist c =>
    rw [LogCall.drafts]
    rcases persist_ready_cases hready c.now c.content c.signer c.topics
      with ⟨e, he⟩ | ⟨t, a, store, hc, ha, -⟩
    · rw [(call_persist_error he).1]
      exact hnone
    · obtain ⟨store', hs⟩ :=
        NumberedStore.append_eq ⟨c.now, (Block.empty.push t c.topics).text⟩ hls
      obtain ⟨rfl, -⟩ := Prod.mk.inj (Except.ok.inj (ha.symm.trans hs))
      rw [(call_persist_ok hready hc ha).1, List.map_singleton, List.map_singleton,
        places_append, receipt, length_places]

variable [LawfulStore σ]

/-- **What calls append is stored as if the store had been given it directly.** -/
theorem locations_appended (hready : log.phase = .ready index)
    (hvalid : LawfulStore.Valid log.store) (hls : Store.locations log.store = .ok (places ds))
    {calls : List LogCall} (hnodup : (places (ds ++ log.drafts calls)).Nodup) :
    places ds ++ (log.appended calls).map (·.location) = places (ds ++ log.drafts calls) := by
  induction calls generalizing log index ds with
  | nil => rw [appended, drafts, List.map_nil, List.append_nil, List.append_nil]
  | cons call calls ih =>
    rw [drafts, ← List.append_assoc] at hnodup ⊢
    have hcall := locations_call hready hls call
    -- the call finds a location that is new, so that the log is ready for the others
    have hnew : ∀ e ∈ call.appended log, e.location ∉ places ds := fun e he hm => by
      have hfirst := hnodup.sublist (places_sublist _ _)
      rw [← hcall, List.nodup_append] at hfirst
      exact hfirst.2.2 _ hm _ (List.mem_map_of_mem he) rfl
    have hgrown := grown_call hready hvalid hls call hnew
    rw [← ih hgrown.phase hgrown.valid (hcall ▸ hgrown.locations) hnodup, ← hcall, appended,
      List.map_append, List.append_assoc]

theorem grown_of_holds {store : σ} {settings : LogSettings} (hholds : Holds store ds)
    (hstart : start (ofStore store settings) = .ok () log) {calls : List LogCall}
    (hnodup : (places (ds ++ log.drafts calls)).Nodup) :
    ∃ loaded, (places ds).mapM (readBlock log.store) = .ok loaded ∧ log.store = store ∧
      (loaded.map LoadedBlock.entry ++ log.appended calls).map (·.location)
        = places (ds ++ log.drafts calls) ∧
      Grown log (places ds) (.ofEntries (loaded.map LoadedBlock.entry)) (log.appended calls)
        (log.run calls) := by
  obtain ⟨_, -, hlog⟩ := exists_entries_of_start hstart hholds.locations
  have happended : places ds ++ (log.appended calls).map (·.location)
      = places (ds ++ log.drafts calls) := by
    subst hlog
    exact locations_appended rfl hholds.valid hholds.locations hnodup
  obtain ⟨loaded, hloaded, hstore, hlocations, hgrown⟩ :=
    grown_of_start hholds.valid hholds.locations hstart (happended ▸ hnodup)
  exact ⟨loaded, hloaded, hstore, hlocations.trans happended, hgrown⟩

/-- **Without collisions the topic index is what the store says**, for every store that appends alone
have filled from an empty one, closed and opened in between. Neither the store nor the log has two
entries at one location, since eight bytes hold the numbers of all entries and no two of the texts have
one hash. -/
theorem index_matches_appends {reopen : σ → Except StorageError σ} {Kept : σ → Prop}
    (hsurvives : Survives reopen Kept) {empty store : σ} (hkept : Kept empty)
    (hempty : Holds empty []) {sessions : List StoreCall} {given : List Appended}
    (hrun : runStore reopen empty sessions = .ok (given, store)) {settings : LogSettings}
    (hstart : start (ofStore store settings) = .ok () log) (calls : List LogCall)
    (hfit : (StoreCall.drafts sessions ++ log.drafts calls).length ≤ UInt64.size)
    (hfree : CollisionFree (StoreCall.drafts sessions ++ log.drafts calls)) :
    ∃ loaded entries, (places (StoreCall.drafts sessions)).mapM (readBlock store) = .ok loaded ∧
      entries = loaded.map LoadedBlock.entry ++ log.appended calls ∧
      entries.map (·.location) = places (StoreCall.drafts sessions ++ log.drafts calls) ∧
      Store.locations (log.run calls).store = .ok (entries.map (·.location)) ∧
      (entries.map (·.location)).Nodup ∧
      (∀ topic, (log.run calls).locationsOf topic
        = .ok ((entries.filter (topic ∈ ·.block.topics)).map (·.location))) ∧
      ∀ settings' fresh, start (ofStore (log.run calls).store settings') = .ok () fresh →
        ∀ topic, fresh.transactionsOf topic = (log.run calls).transactionsOf topic := by
  have hnodup := nodup_places hfit hfree
  obtain ⟨filled, hfilled, hholds⟩ := exists_runStore hsurvives sessions hkept hempty
    (hnodup.sublist (places_sublist _ _))
  obtain ⟨-, rfl⟩ := Prod.mk.inj (Except.ok.inj (hrun.symm.trans hfilled))
  obtain ⟨loaded, hloaded, hstore, hlocations, hgrown⟩ := grown_of_holds hholds hstart hnodup
  have hdistinct := hlocations ▸ hnodup
  have hlisted : Store.locations (log.run calls).store = .ok _ := hgrown.locations
  rw [← locations_of_mapM_readBlock hloaded, ← List.map_append] at hlisted
  exact ⟨loaded, _, hstore ▸ hloaded, rfl, hlocations, hlisted, hdistinct,
    hgrown.locationsOf hdistinct,
    fun settings' fresh hfresh => hgrown.transactionsOf_start hloaded hfresh⟩

end Log

end ChannelLog
