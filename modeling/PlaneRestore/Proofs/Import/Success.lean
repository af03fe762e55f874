import PlaneRestore.Import.Run
import PlaneRestore.Proofs.Trace.Work
/-!
Imports that succeed.

`Work.succeeds_of_led`: all phases of an import that has succeeded have succeeded, one after
another, and its report is made of their results.
-/

namespace PlaneRestore.Work

/-- An import has gone through all its phases. -/
inductive Succeeds (o : ImportOptions) (m : Memory) : Turns → ImportReport → Prop
  | intro {s : ExportedState} {base remaining composites managed : List (String × Nat)}
      {m₁ m₂ m₃ m₄ m₅ m₆ m₇ : Memory} {ts₁ ts₂ ts₃ ts₄ ts₅ ts₆ ts₇ : Turns}
      (reading : (readState o).Led m ts₁ (some (.ok s, m₁)))
      (bringing : (importBase s).Led { m₁ with pausable := none } ts₂ (some (.ok base, m₂)))
      (definitions : (waitForDefinitions o).Led m₂ ts₃ (some (.ok (), m₃)))
      (packages : (waitForPackages o).Led m₃ ts₄ (some (.ok (), m₄)))
      (bringingLater : (importRemaining s).Led m₄ ts₅ (some (.ok remaining, m₅)))
      (unpausing : unpauseComposites.Led m₅ ts₆ (some (.ok composites, m₆)))
      (unpausingManaged : (unpauseManaged o).Led m₆ ts₇ (some (.ok managed, m₇))) :
      Succeeds o m (ts₁ ++ ts₂ ++ ts₃ ++ ts₄ ++ ⟨.call .reset, ()⟩ :: (ts₅ ++ ts₆ ++ ts₇))
        ⟨Table.ofList base, Table.ofList remaining, Table.ofList (composites ++ managed)⟩

theorem succeeds_of_led {o : ImportOptions} {m m' : Memory} {ts : Turns} {report : ImportReport}
    (h : (importState o).Led m ts (some (.ok report, m'))) : Succeeds o m ts report := by
  obtain ⟨s, m₁, ts₁, us, rfl, hreading, h⟩ := led_bind_ok h
  obtain ⟨⟨⟩, m₀, vs, us', rfl, hmodify, h⟩ := led_bind_ok h
  obtain ⟨rfl, hm⟩ := led_done_some hmodify
  cases hm
  obtain ⟨base, m₂, ts₂, us, rfl, hbase, h⟩ := led_bind_ok h
  obtain ⟨⟨⟩, m₃, ts₃, us', rfl, hdefinitions, h⟩ := led_bind_ok h
  obtain ⟨⟨⟩, m₄, ts₄, us, rfl, hpackages, h⟩ := led_bind_ok h
  obtain ⟨⟨⟩, us', rfl, hlater⟩ := led_ask_bind_some h
  obtain ⟨remaining, m₅, ts₅, us, rfl, hremaining, h⟩ := led_bind_ok hlater
  obtain ⟨composites, m₆, ts₆, us', rfl, hcomposites, h⟩ := led_bind_ok h
  obtain ⟨managed, m₇, ts₇, us, rfl, hmanaged, h⟩ := led_bind_ok h
  obtain ⟨rfl, hr⟩ := led_done_some h
  cases hr
  have hall := Succeeds.intro hreading hbase hdefinitions hpackages hremaining hcomposites hmanaged
  simpa using hall

end PlaneRestore.Work
