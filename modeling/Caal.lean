import Caal.Lib.Transfer
import Caal.Daemon.Serve
import Caal.Client.Library
import Caal.Lib.Decimal
import Caal.Client.Exchange
import Caal.Client.Listing
import Caal.Lib.Columns
import Caal.Client.Control
import Caal.Client.Screen
import Caal.Session.Program
import Caal.Session.Teardown
import Caal.Session.Signals
import Caal.Session.Waiting
import Caal.Host.Model
import Caal.Host.Isolation
import Caal.Host.Registry
import Caal.Session.Ledger
import Caal.Host.Visibility
import Caal.Host.Departure
import Caal.Host.Limit
import Caal.Host.Mounts
import Caal.Host.Nesting
import Caal.Daemon.Access
import Caal.Session.Agreement
import Caal.Host.Census
import Caal.Container.Lifecycle
import Caal.Container.Stop
import Caal.Admin.Blocks
import Caal.Daemon.Sighup
import Caal.Toml.Scanner
import Caal.Toml.Parser
import Caal.Toml.Append
import Caal.Toml.Tables
import Caal.Toml.Reading
import Caal.Toml.Entry
import Caal.Admin.Readback
import Caal.Admin.Accounts
import Caal.Lib.Script
import Caal.Admin.Provision
import Caal.Session.Admission
import Caal.Admin.Tenure
import Caal.Admin.Lockout
import Caal.Admin.Prompts
import Caal.Daemon.Registration
import Caal.Daemon.Reload
import Caal.Daemon.History
import Caal.Daemon.Startup
import Caal.Daemon.Exclusion
import Caal.Container.Names
import Caal.Container.OverlayOptions
import Caal.Container.MountOptions
import Caal.Container.Quantities
import Caal.Session.Console
import Caal.Lib.Pipe
import Caal.Session.Bridge
import Caal.Session.Terminal
