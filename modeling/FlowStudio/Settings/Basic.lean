import FlowStudio.Json.Decoding
import FlowStudio.Layout.Config
import FlowStudio.Session.Toolbox

/-! The settings of a user and their JSON form. Any field may be left out, at any level; it then has
its default. -/

namespace FlowStudio
open Json

structure WorkspaceSettings where
  baseUrl : String
  deriving DecidableEq, Repr

structure NotificationSettings where
  autoHideMs : UInt64
  deriving DecidableEq, Repr

structure Settings where
  workspace : WorkspaceSettings
  notifications : NotificationSettings
  layout : LayoutConfig Float
  tools : List Tool
  deriving Repr

namespace WorkspaceSettings

def default : WorkspaceSettings := ⟨"http://localhost:50000"⟩

def form : Json.Form WorkspaceSettings where
  name := "WorkspaceSettings"
  fields := [(field "base_url" decodeString fun baseUrl s => { s with baseUrl }).optional]
  blank := default

def encode (s : WorkspaceSettings) : Json := record [("base_url", .string s.baseUrl)]

end WorkspaceSettings

namespace NotificationSettings

def default : NotificationSettings := ⟨6000⟩

def form : Json.Form NotificationSettings where
  name := "NotificationSettings"
  fields := [(field "auto_hide_ms" decodeUInt64 fun autoHideMs s => { s with autoHideMs }).optional]
  blank := default

def encode (s : NotificationSettings) : Json := record [("auto_hide_ms", nat s.autoHideMs.toNat)]

end NotificationSettings

namespace LayoutConfig

def form : Json.Form (LayoutConfig Float) where
  name := "LayoutConfig"
  fields := [
    (field "margin_x" decodeFloat fun marginX c => { c with marginX }).optional,
    (field "margin_y" decodeFloat fun marginY c => { c with marginY }).optional,
    (field "default_node_width" decodeFloat
      fun defaultNodeWidth c => { c with defaultNodeWidth }).optional,
    (field "default_node_height" decodeFloat
      fun defaultNodeHeight c => { c with defaultNodeHeight }).optional,
    (field "min_content_width" decodeFloat
      fun minContentWidth c => { c with minContentWidth }).optional,
    (field "min_content_height" decodeFloat
      fun minContentHeight c => { c with minContentHeight }).optional,
    (field "node_sep" decodeFloat fun nodeSep c => { c with nodeSep }).optional,
    (field "rank_sep" decodeFloat fun rankSep c => { c with rankSep }).optional]
  blank := default

def encode (c : LayoutConfig Float) : Json :=
  record [("margin_x", float c.marginX), ("margin_y", float c.marginY),
    ("default_node_width", float c.defaultNodeWidth),
    ("default_node_height", float c.defaultNodeHeight),
    ("min_content_width", float c.minContentWidth),
    ("min_content_height", float c.minContentHeight),
    ("node_sep", float c.nodeSep), ("rank_sep", float c.rankSep)]

end LayoutConfig

namespace Tool

def form : Json.Form Tool where
  name := "ToolEntry"
  fields := [field "name" decodeString fun name t => { t with name },
    field "path" decodeString fun path t => { t with path }]
  blank := ⟨"", ""⟩

def encode (t : Tool) : Json := record [("name", .string t.name), ("path", .string t.path)]

end Tool

namespace Settings

def default : Settings := ⟨.default, .default, .default, defaultTools⟩

def form : Json.Form Settings where
  name := "Settings"
  fields := [
    (field "workspace" WorkspaceSettings.form.decode
      fun workspace s => { s with workspace }).optional,
    (field "notifications" NotificationSettings.form.decode
      fun notifications s => { s with notifications }).optional,
    (field "layout" LayoutConfig.form.decode fun layout s => { s with layout }).optional,
    (field "tools" (decodeList Tool.form.decode) fun tools s => { s with tools }).optional]
  blank := default

def encode (s : Settings) : Json :=
  record [("workspace", s.workspace.encode), ("notifications", s.notifications.encode),
    ("layout", s.layout.encode), ("tools", list (s.tools.map Tool.encode))]

def ofText (text : String) : Except Problem Settings := (Document.ofString text).decode form.decode

end Settings
end FlowStudio
