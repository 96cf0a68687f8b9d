import MyNews.Lib.Machine
import MyNews.Lib.Segments
import MyNews.Lib.Draft
import MyNews.Lib.Replica
import MyNews.Lib.Decision
import MyNews.Lib.Observed
import MyNews.Lib.Bus
import MyNews.Lib.OnlyLast
import MyNews.Lib.Uri
import MyNews.Lib.Json
import MyNews.Foundation
import MyNews.Record
import MyNews.OnlineRepository
import MyNews.Decodable
import MyNews.SourcesViewModel
import MyNews.HomeViewController
import MyNews.ProfileViewController
import MyNews.Session
import MyNews.SignUpViewController
import MyNews.LoginViewController
import MyNews.Account
import MyNews.MoreUserDetailsViewController
import MyNews.ContainerViewController
import MyNews.Container.Menu
import MyNews.Sources.Controller
import MyNews.Sources.Selection
import MyNews.Sources.Save
import MyNews.Sources.Reopen
import MyNews.Profile.Save
import MyNews.Profile.Form
import MyNews.Profile.Password
import MyNews.Home.Controller
import MyNews.Home.Feed
import MyNews.Home.RefreshControl
import MyNews.Home.Request
import MyNews.News.Controller
import MyNews.News.Reading
import MyNews.Documents
import MyNews.App.Controller
import MyNews.App.Screens
import MyNews.App.Refinement
import MyNews.App.Record
import MyNews.App.Returning
import MyNews.App.Feed
import MyNews.App.Convergence
import MyNews.App.Requests
import MyNews.App.Answers
import MyNews.App.Operations
import MyNews.App.Devices
