import DstServer.Lib.Decoder
import DstServer.Lua.Literal

/-!
# World overrides of a shard

The model of `world.rs`: the customization choices of a world and the
tables of its fields, one for each kind of world.  `worldValues` reads the
overrides of a world, which are tagged with their kind.

`Host` is what the configuration models take from other packages: how
serde_json reads a number again (`numbers`, and `buffered` behind a
flattened map), whether a number as a `f64` lies between zero and one, the
case mapping of Unicode, and the Lua parser with the numbers of Rust.
-/

namespace DstServer.Presets

open Lib

structure Host where
  numbers : NumberReader
  buffered : NumberReader
  unitInterval : String → Bool
  toLowercase : Text → Text
  doubles : Lua.Doubles
  reader : Lua.Reader

/-! ## Choices -/

def frequency : Decoder := .choice ["never", "rare", "default", "often", "always"]

def worldgenFrequency : Decoder :=
  .choice ["never", "rare", "uncommon", "default", "often", "mostly", "always", "insane"]

def seasonLength : Decoder :=
  .choice ["noseason", "veryshortseason", "shortseason", "default", "longseason", "verylongseason",
    "random"]

def yesNo : Decoder := .choice ["never", "default"]

def enabledDisabled : Decoder := .choice ["none", "always"]

def branching : Decoder := .choice ["never", "least", "default", "most", "random"]

def regrowthSpeed : Decoder := .choice ["never", "veryslow", "slow", "default", "fast", "veryfast"]

def eventSetting : Decoder := .choice ["default", "enabled"]

def damageSetting : Decoder := .choice ["nonlethal", "default"]

def day : Decoder :=
  .choice ["default", "longday", "longdusk", "longnight", "noday", "nodusk", "nonight", "onlyday",
    "onlydusk", "onlynight"]

def dropEverything : Decoder := .choice ["default", "always"]

def extraStartingItems : Decoder := .choice ["0", "5", "default", "15", "20", "none"]

def layoutMode : Decoder := .choice ["LinkNodesByKeys", "RestrictNodesByKey"]

def damageTaken : Decoder := .choice ["always", "none", "more"]

def autoDetect : Decoder := .choice ["never", "default", "always"]

def oceanWorldgenFrequency : Decoder :=
  .choice ["ocean_never", "ocean_rare", "ocean_uncommon", "ocean_default", "ocean_often",
    "ocean_mostly", "ocean_always", "ocean_insane"]

def petrification : Decoder := .choice ["none", "few", "default", "many", "max"]

def startingSwaps : Decoder := .choice ["classic", "default", "highly random"]

def resetTime : Decoder := .choice ["none", "slow", "default", "fast", "always"]

def seasonStart : Decoder :=
  .choice ["default", "winter", "spring", "summer", "autumn|spring", "winter|summer",
    "autumn|winter|spring|summer"]

def spawnMode : Decoder := .choice ["fixed", "scatter"]

def specialEvent : Decoder := .choice ["none", "default"]

def forestStartLocation : Decoder := .choice ["default", "plus", "darkness"]

def forestTaskSet : Decoder := .choice ["default", "classic"]

def worldSize : Decoder := .choice ["small", "medium", "default", "huge"]

def loadedForestIslands : Decoder := .choice ["always", "never", "default", "sometimes", "often"]

def atriumSpeed : Decoder := .choice ["veryslow", "slow", "default", "fast", "veryfast"]

def caveStartLocation : Decoder := .choice ["caves"]

def caveTaskSet : Decoder := .choice ["cave_default"]

def loadedCaveRoads : Decoder := .choice ["never"]

def diseaseDelay : Decoder := .choice ["none", "random", "long", "default", "short"]

def quagmireOverridesStartLocation : Decoder := .choice ["quagmire_startlocation"]

def quagmireOverridesTaskSet : Decoder := .choice ["quagmire_taskset"]

def lavaArenaOverridesStartLocation : Decoder := .choice ["lavaarena"]

def lavaArenaOverridesTaskSet : Decoder := .choice ["lavaarena_taskset"]

/-! ## Values -/

/-- `length(chars, min = 1)` -/
def nonEmpty : Decoder := .text fun text => text ≠ []

namespace Host

/-- `lua::render_literal(value).is_ok()` -/
def renders (host : Host) (value : Json) : Bool :=
  (Lua.renderLiteral host.doubles host.reader value).toOption.isSome

/-- `LuaValue` -/
def luaValue (host : Host) : Decoder := (Decoder.any host.numbers).filter host.renders

/-- `lua_scalar` -/
def isScalar (host : Host) : Json → Bool
  | .string text => host.renders (.string text)
  | .bool value => host.renders (.bool value)
  | .number literal => host.renders (.number literal)
  | _ => false

/-- `LuaScalar` -/
def luaScalar (host : Host) (numbers : NumberReader) : Decoder :=
  (Decoder.any numbers).filter host.isScalar

/-- `UnitInterval` -/
def unit (host : Host) : Decoder := (Decoder.any host.numbers).filter fun value => match value with
  | .number literal => host.unitInterval literal
  | _ => false

end Host

/-! ## Tables -/

/-- Fields that may be absent. -/
def declare (fields : List (String × Decoder)) : List Declared :=
  fields.map fun field => { name := field.1, decoder := field.2 }

/-- `ForestOverrides` -/
def forestOverrides : List Declared := declare
  [("alternatehunt", frequency), ("angrybees", worldgenFrequency), ("antliontribute", frequency),
    ("autumn", seasonLength), ("balatro", yesNo), ("bananabush_portalrate", frequency),
    ("basicresource_regrowth", enabledDisabled), ("bats_setting", frequency),
    ("bearger", frequency), ("beefalo", worldgenFrequency), ("beefaloheat", frequency),
    ("beequeen", frequency), ("bees", worldgenFrequency), ("bees_setting", frequency),
    ("berrybush", worldgenFrequency), ("birds", frequency), ("boons", worldgenFrequency),
    ("branching", branching), ("brightmarecreatures", frequency), ("bunnymen_setting", frequency),
    ("butterfly", frequency), ("buzzard", worldgenFrequency), ("cactus", worldgenFrequency),
    ("cactus_regrowth", regrowthSpeed), ("carrot", worldgenFrequency),
    ("carrots_regrowth", regrowthSpeed), ("catcoon", worldgenFrequency), ("catcoons", frequency),
    ("chess", worldgenFrequency), ("cookiecutters", frequency), ("crabking", frequency),
    ("crow_carnival", eventSetting), ("darkness", damageSetting), ("day", day),
    ("daywalker2", frequency), ("deciduousmonster", frequency),
    ("deciduoustree_regrowth", regrowthSpeed), ("deerclops", frequency), ("dragonfly", frequency),
    ("dropeverythingondespawn", dropEverything), ("evergreen_regrowth", regrowthSpeed),
    ("extrastartingitems", extraStartingItems), ("eyeofterror", frequency),
    ("fishschools", frequency), ("flint", worldgenFrequency), ("flowers", worldgenFrequency),
    ("flowers_regrowth", regrowthSpeed), ("frograin", frequency), ("frogs", frequency),
    ("fruitfly", frequency), ("ghostenabled", enabledDisabled),
    ("ghostsanitydrain", enabledDisabled), ("gnarwail", frequency), ("goosemoose", frequency),
    ("grass", worldgenFrequency), ("grassgekkos", frequency), ("hallowed_nights", eventSetting),
    ("has_ocean", .bool), ("healthpenalty", enabledDisabled), ("hound_mounds", frequency),
    ("houndmound", worldgenFrequency), ("hounds", frequency), ("hunger", damageSetting),
    ("hunt", frequency), ("junkyard", yesNo), ("keep_disconnected_tiles", .bool),
    ("klaus", frequency), ("krampus", frequency), ("layout_mode", layoutMode),
    ("lessdamagetaken", damageTaken), ("liefs", frequency), ("lightcrab_portalrate", frequency),
    ("lightning", frequency), ("lightninggoat", worldgenFrequency), ("loop", autoDetect),
    ("lunarhail_frequency", frequency), ("lureplants", frequency), ("malbatross", frequency),
    ("marshbush", worldgenFrequency), ("merm", worldgenFrequency), ("merms", frequency),
    ("meteorshowers", frequency), ("meteorspawner", worldgenFrequency),
    ("moles", worldgenFrequency), ("moles_setting", frequency),
    ("monkeytail_portalrate", frequency), ("moon_berrybush", worldgenFrequency),
    ("moon_bullkelp", worldgenFrequency), ("moon_carrot", worldgenFrequency),
    ("moon_fissure", worldgenFrequency), ("moon_fruitdragon", worldgenFrequency),
    ("moon_hotspring", worldgenFrequency), ("moon_rock", worldgenFrequency),
    ("moon_sapling", worldgenFrequency), ("moon_spider", frequency),
    ("moon_spiders", worldgenFrequency), ("moon_starfish", worldgenFrequency),
    ("moon_tree", worldgenFrequency), ("moon_tree_regrowth", regrowthSpeed),
    ("mosquitos", frequency), ("mushroom", worldgenFrequency), ("mutated_bearger", yesNo),
    ("mutated_bird_gestalt", yesNo), ("mutated_birds", yesNo), ("mutated_buzzard_gestalt", yesNo),
    ("mutated_deerclops", yesNo), ("mutated_hounds", yesNo), ("mutated_merm", yesNo),
    ("mutated_spiderqueen", yesNo), ("mutated_warg", yesNo), ("no_joining_islands", .bool),
    ("no_wormholes_to_disconnected_tiles", .bool), ("ocean_bullkelp", worldgenFrequency),
    ("ocean_otterdens", worldgenFrequency), ("ocean_seastack", oceanWorldgenFrequency),
    ("ocean_shoal", worldgenFrequency), ("ocean_waterplant", oceanWorldgenFrequency),
    ("ocean_wobsterden", worldgenFrequency), ("otters_setting", frequency),
    ("palmcone_seed_portalrate", frequency), ("palmconetree", worldgenFrequency),
    ("palmconetree_regrowth", regrowthSpeed), ("penguins", frequency), ("penguins_moon", yesNo),
    ("perd", frequency), ("petrification", petrification), ("pigs", worldgenFrequency),
    ("pigs_setting", frequency), ("pirateraids", frequency), ("ponds", worldgenFrequency),
    ("portal_spawnrate", frequency), ("portalresurection", enabledDisabled),
    ("powder_monkey_portalrate", frequency), ("prefabswaps_start", startingSwaps),
    ("rabbits", worldgenFrequency), ("rabbits_setting", frequency), ("reeds", worldgenFrequency),
    ("reeds_regrowth", regrowthSpeed), ("regrowth", regrowthSpeed), ("resettime", resetTime),
    ("rifts_enabled", autoDetect), ("rifts_frequency", frequency), ("roads", yesNo),
    ("rock", worldgenFrequency), ("rock_ice", worldgenFrequency),
    ("saltstack_regrowth", regrowthSpeed), ("sapling", worldgenFrequency),
    ("season_start", seasonStart), ("seasonalstartingitems", yesNo), ("shadowcreatures", frequency),
    ("sharkboi", frequency), ("sharks", frequency), ("spawnmode", spawnMode),
    ("spawnprotection", autoDetect), ("specialevent", specialEvent), ("spider_warriors", yesNo),
    ("spiderqueen", frequency), ("spiders", worldgenFrequency), ("spiders_setting", frequency),
    ("spring", seasonLength), ("squid", frequency), ("stageplays", yesNo),
    ("start_location", forestStartLocation), ("summer", seasonLength), ("summerhounds", yesNo),
    ("tallbirds", worldgenFrequency), ("task_set", forestTaskSet),
    ("temperaturedamage", damageSetting), ("tentacles", worldgenFrequency),
    ("terrariumchest", yesNo), ("touchstone", worldgenFrequency), ("trees", worldgenFrequency),
    ("tumbleweed", worldgenFrequency), ("twiggytrees_regrowth", regrowthSpeed),
    ("walrus", worldgenFrequency), ("walrus_setting", frequency),
    ("wanderingtrader_enabled", enabledDisabled), ("wasps", frequency), ("weather", frequency),
    ("wildfires", frequency), ("winter", seasonLength), ("winterhounds", yesNo),
    ("winters_feast", eventSetting), ("wobsters", frequency), ("world_size", worldSize),
    ("wormhole_prefab", nonEmpty), ("year_of_the_beefalo", eventSetting),
    ("year_of_the_bunnyman", eventSetting), ("year_of_the_carrat", eventSetting),
    ("year_of_the_catcoon", eventSetting), ("year_of_the_dragonfly", eventSetting),
    ("year_of_the_gobbler", eventSetting), ("year_of_the_knight", eventSetting),
    ("year_of_the_pig", eventSetting), ("year_of_the_snake", eventSetting),
    ("year_of_the_varg", eventSetting)]

/-- `CaveOverrides` -/
def caveOverrides : List Declared := declare
  [("acidrain_enabled", enabledDisabled), ("atriumgate", atriumSpeed), ("autumn", seasonLength),
    ("banana", worldgenFrequency), ("basicresource_regrowth", enabledDisabled),
    ("bat_boss", frequency), ("bats", worldgenFrequency), ("bats_setting", frequency),
    ("beefaloheat", frequency), ("berrybush", worldgenFrequency), ("boons", worldgenFrequency),
    ("branching", branching), ("brightmarecreatures", frequency), ("bunnymen", worldgenFrequency),
    ("bunnymen_setting", frequency), ("cave_ponds", worldgenFrequency),
    ("cave_spiders", worldgenFrequency), ("cavelight", regrowthSpeed), ("chess", worldgenFrequency),
    ("chest_mimics", frequency), ("crow_carnival", eventSetting), ("darkness", damageSetting),
    ("day", day), ("daywalker", frequency), ("dropeverythingondespawn", dropEverything),
    ("dustmoths", frequency), ("earthquakes", frequency), ("evergreen_regrowth", regrowthSpeed),
    ("extrastartingitems", extraStartingItems), ("fern", worldgenFrequency),
    ("fissure", worldgenFrequency), ("flint", worldgenFrequency),
    ("flower_cave", worldgenFrequency), ("flower_cave_regrowth", regrowthSpeed),
    ("fruitfly", frequency), ("ghostenabled", enabledDisabled),
    ("ghostsanitydrain", enabledDisabled), ("grass", worldgenFrequency), ("grassgekkos", frequency),
    ("hallowed_nights", eventSetting), ("has_ocean", .nullable .bool),
    ("healthpenalty", enabledDisabled), ("hunger", damageSetting), ("itemmimics", frequency),
    ("keep_disconnected_tiles", .nullable .bool), ("krampus", frequency),
    ("layout_mode", layoutMode), ("lessdamagetaken", damageTaken), ("lichen", worldgenFrequency),
    ("liefs", frequency), ("lightflier_flower_regrowth", regrowthSpeed), ("lightfliers", frequency),
    ("loop", autoDetect), ("marshbush", worldgenFrequency), ("merms", frequency),
    ("molebats", frequency), ("moles_setting", frequency), ("monkey", worldgenFrequency),
    ("monkey_setting", frequency), ("moon_spider", frequency), ("mushgnome", frequency),
    ("mushroom", worldgenFrequency), ("mushtree", worldgenFrequency),
    ("mushtree_moon_regrowth", regrowthSpeed), ("mushtree_regrowth", regrowthSpeed),
    ("mutated_birds", yesNo), ("mutated_merm", yesNo), ("mutated_spiderqueen", yesNo),
    ("nightmarecreatures", frequency), ("no_joining_islands", .nullable .bool),
    ("no_wormholes_to_disconnected_tiles", .nullable .bool), ("pigs_setting", frequency),
    ("portalresurection", enabledDisabled), ("prefabswaps_start", startingSwaps),
    ("reeds", worldgenFrequency), ("reeds_regrowth", regrowthSpeed), ("regrowth", regrowthSpeed),
    ("resettime", resetTime), ("rifts_enabled_cave", autoDetect),
    ("rifts_frequency_cave", frequency), ("rock", worldgenFrequency), ("rocky", worldgenFrequency),
    ("rocky_boss", frequency), ("rocky_setting", frequency), ("sapling", worldgenFrequency),
    ("season_start", seasonStart), ("seasonalstartingitems", yesNo), ("shadowcreatures", frequency),
    ("slurper", worldgenFrequency), ("slurtles", worldgenFrequency),
    ("slurtles_setting", frequency), ("snurtles", frequency), ("spawnmode", spawnMode),
    ("spawnprotection", autoDetect), ("specialevent", specialEvent), ("spider_dropper", frequency),
    ("spider_hider", frequency), ("spider_spitter", frequency), ("spider_warriors", yesNo),
    ("spiderqueen", frequency), ("spiders", worldgenFrequency), ("spiders_setting", frequency),
    ("spring", seasonLength), ("start_location", caveStartLocation), ("summer", seasonLength),
    ("task_set", caveTaskSet), ("temperaturedamage", damageSetting),
    ("tentacles", worldgenFrequency), ("toadstool", frequency), ("touchstone", worldgenFrequency),
    ("tree_rock", worldgenFrequency), ("tree_rock_regrowth", regrowthSpeed),
    ("trees", worldgenFrequency), ("twiggytrees_regrowth", regrowthSpeed), ("weather", frequency),
    ("winter", seasonLength), ("winters_feast", eventSetting), ("world_size", worldSize),
    ("wormattacks", frequency), ("wormattacks_boss", frequency), ("wormhole_prefab", nonEmpty),
    ("wormlights", worldgenFrequency), ("worms", worldgenFrequency),
    ("year_of_the_beefalo", eventSetting), ("year_of_the_bunnyman", eventSetting),
    ("year_of_the_carrat", eventSetting), ("year_of_the_catcoon", eventSetting),
    ("year_of_the_dragonfly", eventSetting), ("year_of_the_gobbler", eventSetting),
    ("year_of_the_knight", eventSetting), ("year_of_the_pig", eventSetting),
    ("year_of_the_snake", eventSetting), ("year_of_the_varg", eventSetting)]

/-- `QuagmireOverrides` -/
def quagmireOverrides (host : Host) : List Declared := declare
  [("autumn", seasonLength), ("basicresource_regrowth", enabledDisabled),
    ("beefaloheat", frequency), ("boons", worldgenFrequency), ("branching", branching),
    ("brightmarecreatures", frequency), ("crow_carnival", eventSetting),
    ("darkness", damageSetting), ("day", day), ("disease_delay", diseaseDelay),
    ("dropeverythingondespawn", dropEverything), ("extrastartingitems", extraStartingItems),
    ("ghostenabled", enabledDisabled), ("ghostsanitydrain", enabledDisabled),
    ("hallowed_nights", eventSetting), ("healthpenalty", enabledDisabled),
    ("hunger", damageSetting), ("keep_disconnected_tiles", .bool), ("krampus", frequency),
    ("layout_mode", layoutMode), ("lessdamagetaken", damageTaken), ("loop_percent", host.unit),
    ("no_joining_islands", .bool), ("no_wormholes_to_disconnected_tiles", .bool),
    ("petrification", petrification), ("poi", worldgenFrequency),
    ("portalresurection", enabledDisabled), ("prefabswaps_start", startingSwaps),
    ("protected", worldgenFrequency), ("resettime", resetTime), ("roads", yesNo),
    ("season_start", seasonStart), ("seasonalstartingitems", yesNo), ("shadowcreatures", frequency),
    ("spawnmode", spawnMode), ("spawnprotection", autoDetect), ("specialevent", specialEvent),
    ("spring", seasonLength), ("start_location", quagmireOverridesStartLocation),
    ("summer", seasonLength), ("task_set", quagmireOverridesTaskSet),
    ("temperaturedamage", damageSetting), ("touchstone", worldgenFrequency),
    ("traps", worldgenFrequency), ("wildfires", frequency), ("winter", seasonLength),
    ("winters_feast", eventSetting), ("world_size", worldSize),
    ("year_of_the_beefalo", eventSetting), ("year_of_the_bunnyman", eventSetting),
    ("year_of_the_carrat", eventSetting), ("year_of_the_catcoon", eventSetting),
    ("year_of_the_dragonfly", eventSetting), ("year_of_the_gobbler", eventSetting),
    ("year_of_the_knight", eventSetting), ("year_of_the_pig", eventSetting),
    ("year_of_the_snake", eventSetting), ("year_of_the_varg", eventSetting)]

/-- `LavaArenaOverrides` -/
def lavaArenaOverrides : List Declared := declare
  [("autumn", seasonLength), ("basicresource_regrowth", enabledDisabled),
    ("beefaloheat", frequency), ("boons", worldgenFrequency), ("brightmarecreatures", frequency),
    ("crow_carnival", eventSetting), ("darkness", damageSetting), ("day", day),
    ("dropeverythingondespawn", dropEverything), ("extrastartingitems", extraStartingItems),
    ("ghostenabled", enabledDisabled), ("ghostsanitydrain", enabledDisabled),
    ("hallowed_nights", eventSetting), ("healthpenalty", enabledDisabled),
    ("hunger", damageSetting), ("keep_disconnected_tiles", .bool), ("krampus", frequency),
    ("layout_mode", layoutMode), ("lessdamagetaken", damageTaken), ("no_joining_islands", .bool),
    ("no_wormholes_to_disconnected_tiles", .bool), ("poi", worldgenFrequency),
    ("portalresurection", enabledDisabled), ("protected", worldgenFrequency),
    ("resettime", resetTime), ("roads", yesNo), ("season_start", seasonStart),
    ("seasonalstartingitems", yesNo), ("shadowcreatures", frequency), ("spawnmode", spawnMode),
    ("spawnprotection", autoDetect), ("specialevent", specialEvent), ("spring", seasonLength),
    ("start_location", lavaArenaOverridesStartLocation), ("summer", seasonLength),
    ("task_set", lavaArenaOverridesTaskSet), ("temperaturedamage", damageSetting),
    ("touchstone", worldgenFrequency), ("traps", worldgenFrequency), ("winter", seasonLength),
    ("winters_feast", eventSetting), ("world_size", worldSize),
    ("year_of_the_beefalo", eventSetting), ("year_of_the_bunnyman", eventSetting),
    ("year_of_the_carrat", eventSetting), ("year_of_the_catcoon", eventSetting),
    ("year_of_the_dragonfly", eventSetting), ("year_of_the_gobbler", eventSetting),
    ("year_of_the_knight", eventSetting), ("year_of_the_pig", eventSetting),
    ("year_of_the_snake", eventSetting), ("year_of_the_varg", eventSetting)]

/-! ## Kinds -/

/-- The overrides of each kind of world. -/
def worldKinds (host : Host) : List (String × Record) := [
  ("world", {}),
  ("forest", { declared := forestOverrides }),
  ("cave", { declared := caveOverrides }),
  ("quagmire", { declared := quagmireOverrides host }),
  ("lavaarena", { declared := lavaArenaOverrides }),
  ("custom", { rest := some (host.luaScalar host.numbers) }),
  ("loaded_forest", {
    declared := forestOverrides ++ declare [("islands", .nullable loadedForestIslands)]
    rest := some (host.luaScalar host.buffered) }),
  ("loaded_cave", {
    declared := caveOverrides ++ declare [("roads", .nullable loadedCaveRoads)]
    rest := some (host.luaScalar host.buffered) })]

/-- `WorldValues` -/
def worldValues (host : Host) : Decoder :=
  .tagged "kind" "values" ((worldKinds host).map fun entry => (entry.1, entry.2.decoder))

end DstServer.Presets
