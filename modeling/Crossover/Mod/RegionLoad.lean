import Crossover.Lib.Machine
import Crossover.Lib.Walk
import Crossover.Mod.Effects

/-!
# RegionLoad — `HUpdateRegionLoad` over the static callback map

The hook is a range-for over `updateRegionLoadCallbacks`, and the one closure that is ever
registered removes the entry it is registered under before it reads what it captures.  The map may
hold anything here: any keys, and functions that are empty.
-/

namespace Crossover
namespace Mod

open Walk

/-- `CWorld::updateRegionLoadCallbacks`; an empty `std::function` is `none`. -/
abbrev RegionLoadMap := CallbackMap (Option RegionLoadCallback)

/-- What the function of an entry does to the map and to its own captures. -/
def regionLoadBody (status : RegionLoadStatus) : Option RegionLoadCallback → List (Act String)
  -- `if (pair.second)`
  | none => []
  | some _ =>
      if status ≠ .notLoadingRegion then []
      else
        -- `networkId`, `defGlobalIndex` and `position` are written, then `this->network` sends.
        [.erase regionLoadKey, .capture, .capture, .capture, .capture]

/-- What happens to the map. -/
inductive RegionLoadEvent
  | update (status : RegionLoadStatus)
  | add (id : String) (callback : Option RegionLoadCallback)
  | remove (id : String)
  deriving DecidableEq, Repr

/-- The map as a machine; an update leaves the accesses it has made. -/
def regionLoad : Machine RegionLoadMap RegionLoadEvent Access where
  step callbacks
    | .update status => forEach (regionLoadBody status) callbacks
    | .add id callback => (callbacks.assign id callback, [])
    | .remove id => (callbacks.erase id, [])

/-- An update finds the region loading, or no closure under the key that closures erase, or an
earlier entry whose closure erases it unseen. -/
def SafeUpdate (callbacks : RegionLoadMap) : RegionLoadEvent → Prop
  | .update status => status = .notLoadingRegion →
      ∀ before callback after, callbacks = before ++ (regionLoadKey, some callback) :: after →
        ∃ entry ∈ before, entry.2.isSome = true
  | _ => True

/-! ## One update -/

theorem unharmed_loading {status : RegionLoadStatus} (hloading : status ≠ .notLoadingRegion)
    (callbacks : RegionLoadMap) : Unharmed (regionLoadBody status) callbacks := by
  refine unharmed_of_forall fun entry _ other _ => ?_
  cases hfunction : other.2 with
  | none => simp [regionLoadBody]
  | some callback => simp [regionLoadBody, hloading]

/-- Once the load is complete, all depends on who comes first to the closures' key. -/
theorem unharmed_complete_iff (callbacks : RegionLoadMap) :
    Unharmed (regionLoadBody .notLoadingRegion) callbacks ↔
      ∀ before callback after, callbacks = before ++ (regionLoadKey, some callback) :: after →
        ∃ entry ∈ before, entry.2.isSome = true := by
  induction callbacks with
  | nil =>
    refine ⟨fun _ before callback after hsplit => ?_, fun _ => unharmed_nil⟩
    simp at hsplit
  | cons entry rest ih =>
    obtain ⟨key, function⟩ := entry
    rw [unharmed_cons]
    cases function with
    | none =>
      have hskip : Act.erase key ∉ regionLoadBody .notLoadingRegion none := by
        simp [regionLoadBody]
      have hspared : spared (regionLoadBody .notLoadingRegion none) rest = rest := spared_nil rest
      rw [hspared, ih]
      constructor
      · rintro ⟨-, hrest⟩ before callback after hsplit
        cases before with
        | nil => simp at hsplit
        | cons first before =>
          simp only [List.cons_append, List.cons.injEq] at hsplit
          obtain ⟨entry, hmem, hsome⟩ := hrest before callback after hsplit.2
          exact ⟨entry, List.mem_cons_of_mem _ hmem, hsome⟩
      · intro hall
        refine ⟨hskip, fun before callback after hsplit => ?_⟩
        obtain ⟨entry, hmem, hsome⟩ :=
          hall ((key, none) :: before) callback after (by rw [hsplit]; rfl)
        rcases List.mem_cons.1 hmem with rfl | hmem
        · cases hsome
        · exact ⟨entry, hmem, hsome⟩
    | some callback =>
      by_cases hkey : key = regionLoadKey
      · -- The closure stands under the key it erases.
        refine iff_of_false (fun h => h.1 (by simp [regionLoadBody, hkey])) ?_
        intro hall
        obtain ⟨entry, hmem, -⟩ := hall [] callback rest (by rw [hkey]; rfl)
        cases hmem
      · refine iff_of_true ⟨by simp [regionLoadBody, hkey], ?_⟩ ?_
        · refine unharmed_of_forall fun one hone other _ => ?_
          have hne : one.1 ≠ regionLoadKey := by
            have hspared := (List.mem_filter.1 hone).2
            simpa [regionLoadBody] using hspared
          cases hfunction : other.2 with
          | none => simp [regionLoadBody]
          | some other => simp [regionLoadBody, hne]
        · intro before other after hsplit
          cases before with
          | nil =>
            simp only [List.nil_append, List.cons.injEq, Prod.mk.injEq] at hsplit
            exact absurd hsplit.1.1 hkey
          | cons first before =>
            simp only [List.cons_append, List.cons.injEq] at hsplit
            exact ⟨first, List.mem_cons_self, by rw [← hsplit.1]; rfl⟩

theorem regionLoad_step_safe_iff (callbacks : RegionLoadMap) (event : RegionLoadEvent) :
    (∀ access ∈ (regionLoad.step callbacks event).2, access.ok = true) ↔
      SafeUpdate callbacks event := by
  cases event with
  | update status =>
    refine (forEach_safe_iff (regionLoadBody status) callbacks).trans ?_
    by_cases hloading : status = .notLoadingRegion
    · rw [hloading, unharmed_complete_iff]
      exact ⟨fun h _ => h, fun h => h rfl⟩
    · exact iff_of_true (unharmed_loading hloading callbacks) fun h => absurd h hloading
  | add id callback => exact iff_of_true (by simp [regionLoad]) trivial
  | remove id => exact iff_of_true (by simp [regionLoad]) trivial

/-! ## The session's map -/

/-- The map of a session, where no function is empty. -/
def Session.regionLoadMap {σ : Type} (s : Session σ) : RegionLoadMap :=
  s.updateRegionLoadCallbacks.map fun entry => (entry.1, some entry.2)

section Session

variable {σ : Type} (E : Engine σ)

theorem map_forEach_loading {status : RegionLoadStatus} (hloading : status ≠ .notLoadingRegion)
    (callbacks : RegionLoadMap) : (forEach (regionLoadBody status) callbacks).1 = callbacks := by
  have hbody : ∀ function, regionLoadBody status function = [] := by
    intro function
    cases function <;> simp [regionLoadBody, hloading]
  have hvisit : ∀ entries, (visit (regionLoadBody status) callbacks entries).1 = callbacks := by
    intro entries
    induction entries with
    | nil => rw [visit_nil]
    | cons entry rest ih =>
      obtain ⟨key, function⟩ := entry
      have hown : Act.erase key ∉ regionLoadBody status function := by
        rw [hbody]
        exact List.not_mem_nil
      rw [visit_cons_kept hown]
      simpa [hbody] using ih
  exact hvisit callbacks

/-- One visited closure already leaves the map as the whole loop does. -/
theorem map_visit_complete (callbacks entries : RegionLoadMap) (hne : entries ≠ [])
    (hclosures : ∀ entry ∈ entries, entry.2.isSome = true) :
    (visit (regionLoadBody .notLoadingRegion) callbacks entries).1 =
      without regionLoadKey callbacks := by
  have hspared : ∀ callback (l : RegionLoadMap),
      spared (regionLoadBody .notLoadingRegion (some callback)) l = without regionLoadKey l := by
    intro callback l
    apply List.filter_congr
    intro entry _
    by_cases hkey : entry.1 = regionLoadKey <;> simp [regionLoadBody, hkey]
  induction hlength : entries.length using Nat.strongRecOn generalizing callbacks entries with
  | ind n ih =>
    obtain ⟨entry, rest, rfl⟩ := List.exists_cons_of_ne_nil hne
    obtain ⟨key, function⟩ := entry
    obtain ⟨callback, rfl⟩ := Option.isSome_iff_exists.1 (hclosures _ List.mem_cons_self)
    by_cases hown : Act.erase key ∈ regionLoadBody .notLoadingRegion (some callback)
    · rw [visit_cons_lost hown, hspared]
    · rw [visit_cons_kept hown]
      simp only [hspared]
      by_cases hrest : without regionLoadKey rest = []
      · rw [hrest, visit_nil]
      · have hshort : (without regionLoadKey rest).length < n := by
          rw [← hlength]
          exact Nat.lt_succ_of_le (List.length_filter_le _ _)
        rw [ih _ hshort _ _ hrest
          (fun entry hmem => hclosures entry
            (List.mem_cons_of_mem _ (List.mem_filter.1 hmem).1)) rfl, without, without,
          List.filter_filter]
        simp

/-- While the region loads, the session's closures do nothing. -/
theorem updateRegionLoad_loading {s : Session σ}
    (hloading : E.regionLoadStatus s.engine ≠ .notLoadingRegion) : s.updateRegionLoad E = s := by
  unfold Session.updateRegionLoad
  induction s.updateRegionLoadCallbacks with
  | nil => rfl
  | cons entry rest ih =>
    have hfirst : s.runRegionLoadCallback E entry.2 = s := by
      simp only [Session.runRegionLoadCallback, hloading, ne_eq, not_false_eq_true, if_true]
    rw [List.foldl_cons, hfirst, ih]

theorem callbacks_runRegionLoadCallback {s : Session σ}
    (hcomplete : E.regionLoadStatus s.engine = .notLoadingRegion) (callback : RegionLoadCallback) :
    (s.runRegionLoadCallback E callback).updateRegionLoadCallbacks =
      s.updateRegionLoadCallbacks.erase regionLoadKey := by
  simp only [Session.runRegionLoadCallback, hcomplete, ne_eq, not_true, if_false]
  obtain ⟨sent, hsent⟩ := Session.spoke_sendToHost E
    { s with updateRegionLoadCallbacks := s.updateRegionLoadCallbacks.erase regionLoadKey }
    (Session.createNetPlayerMessage callback.networkId callback.defGlobalIndex callback.position)
    .reliableOrdered
  rw [hsent]

/-- The first closure that runs erases what all of them erase. -/
theorem callbacks_foldl {entries : CallbackMap RegionLoadCallback} (hne : entries ≠ [])
    {s : Session σ} (hcomplete : E.regionLoadStatus s.engine = .notLoadingRegion) :
    (entries.foldl (fun s entry => s.runRegionLoadCallback E entry.2)
        s).updateRegionLoadCallbacks = s.updateRegionLoadCallbacks.erase regionLoadKey := by
  induction entries generalizing s with
  | nil => exact absurd rfl hne
  | cons entry rest ih =>
    have hquiet := Session.quiet_runRegionLoadCallback E s entry.2
    have hfirst := callbacks_runRegionLoadCallback E hcomplete entry.2
    cases rest with
    | nil => exact hfirst
    | cons next rest =>
      rw [List.foldl_cons, ih (by simp) (by rw [hquiet.engine, hcomplete]), hfirst]
      simp [CallbackMap.erase, List.filter_filter]

/-- The loop leaves the map that the session's hook leaves. -/
theorem regionLoadMap_updateRegionLoad (s : Session σ) :
    (s.updateRegionLoad E).regionLoadMap =
      (regionLoad.step s.regionLoadMap (.update (E.regionLoadStatus s.engine))).1 := by
  by_cases hcomplete : E.regionLoadStatus s.engine = .notLoadingRegion
  · rw [hcomplete]
    by_cases hclosures : s.updateRegionLoadCallbacks = []
    · simp [Session.updateRegionLoad, Session.regionLoadMap, hclosures, regionLoad, forEach,
        visit_nil]
    · have hne : s.regionLoadMap ≠ [] := by
        simpa [Session.regionLoadMap] using hclosures
      have hfull : ∀ entry ∈ s.regionLoadMap, entry.2.isSome = true := by
        intro entry hmem
        obtain ⟨closure, _, rfl⟩ := List.mem_map.1 hmem
        rfl
      have hloop : (regionLoad.step s.regionLoadMap (.update .notLoadingRegion)).1 = _ :=
        map_visit_complete s.regionLoadMap s.regionLoadMap hne hfull
      have hsession := callbacks_foldl E hclosures hcomplete
      rw [hloop, Session.regionLoadMap, Session.updateRegionLoad, hsession]
      simp [Session.regionLoadMap, without, CallbackMap.erase, List.filter_map, Function.comp_def]
  · rw [updateRegionLoad_loading E hcomplete]
    exact (map_forEach_loading hcomplete s.regionLoadMap).symm

end Session

/-! ## Any history -/

/-- Callback dispatch.  Whatever the map holds and whatever happens to it, no iterator and no
closure is used after its entry was erased exactly when every update is a safe one. -/
theorem callback_dispatch_safe_iff (callbacks : RegionLoadMap) (events : List RegionLoadEvent) :
    (∀ access ∈ regionLoad.log callbacks events, access.ok = true) ↔
      regionLoad.StepsSatisfy SafeUpdate callbacks events :=
  Machine.forall_log_iff regionLoad_step_safe_iff callbacks events

/-- The closure of `BroadcastCreateLocalNetPlayer`, at the update at which its region is there. -/
theorem callback_erases_itself :
    ¬ ∀ (callbacks : RegionLoadMap) (events : List RegionLoadEvent),
      ∀ access ∈ regionLoad.log callbacks events, access.ok = true := by
  intro hall
  let callback : RegionLoadCallback := { networkId := 1, defGlobalIndex := 7, position := {} }
  have hsafe := (regionLoad_step_safe_iff [(regionLoadKey, some callback)]
    (.update .notLoadingRegion)).1 ?_
  · obtain ⟨entry, hmem, -⟩ := hsafe rfl [] callback [] rfl
    cases hmem
  · intro access hmem
    refine hall [(regionLoadKey, some callback)] [.update .notLoadingRegion] access ?_
    simpa [Machine.log, Machine.run] using hmem

end Mod
end Crossover
