/-!
# Conversion settings

A map may be the value of a named variable. `MapNaming` says whether its name survives
conversion, and `Settings` holds that choice; of several choices made one after the other the
last one counts.
-/

namespace DesignTokens

/-- What becomes of the name of a named map. -/
inductive MapNaming where
  /-- The name is dropped, and the map's entries stand in its place. -/
  | flatten
  /-- The map is wrapped under its name, as a value of any other kind is. -/
  | nest
deriving DecidableEq, Repr

/-- The settings of a conversion. -/
structure Settings where
  /-- The treatment of named maps. -/
  mapNaming : MapNaming := .flatten
deriving DecidableEq, Repr

namespace Settings

/-- Chooses the treatment of named maps. -/
def withMapNaming (settings : Settings) (naming : MapNaming) : Settings :=
  { settings with mapNaming := naming }

/-- Chooses whether named maps are wrapped under their names. -/
def nestMaps (settings : Settings) (nest : Bool) : Settings :=
  settings.withMapNaming (if nest then .nest else .flatten)

/-- Of two choices the later one counts. -/
@[simp]
theorem withMapNaming_withMapNaming (settings : Settings) (first second : MapNaming) :
    (settings.withMapNaming first).withMapNaming second = settings.withMapNaming second := rfl

end Settings

end DesignTokens
