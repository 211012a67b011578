import DepaKms.Tooling

set_option autoImplicit false

/-!
# The service settings
-/
namespace DepaKms.Settings

def logContext : LogContext := LogContext.new.appendScope "Settings"

def defaultSettings : Json :=
  .obj [("service", .obj [("name", .str "azure-privacy-sandbox-kms"),
    ("description", .str "Key Management Service"), ("version", .str "1.0.0"),
    ("debug", .bool false)])]

def serviceField (settings : Json) (name : String) : Except JsError JsValue := do
  let service ← settings.get "service"
  service.get name

def logSettings (E : Engine) (settings : Json) : Handler Unit := do
  let name ← serviceField settings "name"
  let nameText ← name.render E
  Logger.debug E s!"Service Name: {nameText}" (some logContext) []
  let description ← serviceField settings "description"
  let descriptionText ← description.render E
  Logger.debug E s!"Service Description: {descriptionText}" (some logContext) []
  let version ← serviceField settings "version"
  let versionText ← version.render E
  Logger.debug E s!"Service Version: {versionText}" (some logContext) []
  let debug ← serviceField settings "debug"
  let debugText ← debug.render E
  Logger.debug E s!"Debug: {debugText}" (some logContext) []

def loadSettingsFromMap (h : Host) (settingsPolicyMap : KvMap String KvText)
    (logContextIn : LogContext) : Handler Json := do
  let logContext := LogContext.within (some logContextIn) "loadSettingsFromMap"
  Logger.info h.toEngine
    s!"Loading settings from map: {h.kvMapText settingsPolicyMap.keys.length}" (some logContext) []
  let settingsPolicyStr := (settingsPolicyMap.lookup "settings_policy").map
    (KvText.bufToStr h.toEngine)
  Logger.debug h.toEngine s!"Loading settings: {undefinedText settingsPolicyStr}" (some logContext) []
  match settingsPolicyMap.lookup "settings_policy" with
  | none | some (.raw "") => do
    Logger.warn h.toEngine "No settings policy found, using default settings" (some logContext) []
    pure defaultSettings
  | some (.json settings) => pure settings
  | some (.raw text) => do
    let error := s!"Failed to parse settings policy: {text}"
    Logger.error h.toEngine error (some logContext) []
    throw (KmsError error logContext)

def setLogLevelFromSettings (settings : Json) : Handler Unit := do
  let debug ← serviceField settings "debug"
  if debug.truthy then .emit (.setLogLevel .DEBUG) else pure ()

end DepaKms.Settings
