import Peering.CommandLine.Command

/-!
# Help

The texts that tell how the program is used, one for each command.
-/

namespace Peering

namespace CommandLine

def programName : String := "p2pnode"

def programVersion : String := "0.1.0"

/-- A heading, and rows of two columns below it; the second column starts at the same place. -/
def helpTable (heading : String) (rows : List (String × String)) : String :=
  let width := rows.foldl (fun width row => max width row.1.length) 0
  heading ++ ":\n" ++ String.join (rows.map fun (left, right) =>
    "  " ++ left ++ String.ofList (List.replicate (width - left.length + 2) ' ') ++ right ++ "\n")

def helpRow : String × String := ("-h, --help", "Print help")

/-- What a command does, in one line. -/
def Topic.purpose : Topic → String
  | .program => "Standalone P2P networking core"
  | .start => "Start a node and run until Ctrl+C"
  | .id => "Print a fresh node id"
  | .config => "Print the default config as JSON"
  | .help => "Print this message or the help of the given subcommand(s)"

def Topic.usage : Topic → String
  | .program => "<COMMAND>"
  | .start => "start [OPTIONS]"
  | .id => "id"
  | .config => "config"
  | .help => "help [COMMAND]..."

def Topic.tables : Topic → List String
  | .program =>
      [helpTable "Commands" [("start", Topic.start.purpose), ("id", Topic.id.purpose),
        ("config", Topic.config.purpose), ("help", Topic.help.purpose)],
       helpTable "Options" [helpRow, ("-V, --version", "Print version")]]
  | .start =>
      [helpTable "Options"
        [("-c, --config <CONFIG>", "JSON config file; flags below override it"),
         ("    --ip <IP>", "Listen address"),
         ("-p, --port <PORT>", "Listen port (0 picks a free one)"),
         ("    --chain-id <CHAIN_ID>", "Chain id peers must match"),
         ("    --peers <PEERS>", "Comma-separated boot nodes (p2p://<id>@<ip>:<port>)"),
         ("    --max-active <MAX_ACTIVE>", "Maximum active nodes"),
         ("    --upnp", "Map the listen port on the router"),
         ("    --seeds-only", "Only dial boot nodes and skip gossip"),
         helpRow]]
  | .id | .config => [helpTable "Options" [helpRow]]
  | .help => [helpTable "Arguments" [("[COMMAND]...", "Print help for the subcommand(s)")]]

def Topic.text (topic : Topic) : String :=
  String.intercalate "\n" ((topic.purpose ++ "\n") ::
    ("Usage: " ++ programName ++ " " ++ topic.usage ++ "\n") :: topic.tables)

end CommandLine

end Peering
